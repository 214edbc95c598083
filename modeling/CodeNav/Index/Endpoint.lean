import CodeNav.Direct
import CodeNav.Http.Exchange
import CodeNav.Json.Printer
import CodeNav.Text.Base64

/-! # The index over the web

An endpoint takes a request as a posted JSON document and answers with another one. An access token
is sent as the password of a user without a name.
-/

namespace CodeNav.Index

structure Endpoint where
  address : String
  token? : Option String := none
  deriving DecidableEq, Repr

namespace Endpoint

/-- The name of the kind of index, for the log. -/
def name : String := "azure-devops"

def userAgent : String := "fastnav/0.1.0"

/-- The endpoint of a project, unless the settings name another one. -/
def ofRepository (repository : Repository) (settings : Settings) : Endpoint where
  address := settings.endpoint?.getD (endpointOf repository.projectUri)
  token? := settings.token?

def authorization (token : String) : String :=
  "Basic " ++ String.ofList (Text.Base64.encode (Text.Utf8.encode (":" ++ token).toList))

def headers (endpoint : Endpoint) : List (String × String) :=
  [("content-type", "application/json")] ++
    (endpoint.token?.map fun token => ("authorization", authorization token)).toList ++
    [("accept", "*/*"), ("user-agent", userAgent)]

def isWeb (url : Http.Url) : Bool := url.scheme == "http" || url.scheme == "https"

/-- The request to the endpoint. The address has to be one of the web. -/
def httpRequest (endpoint : Endpoint) (request : Request) : Except ErrorChain Http.Request :=
  match Http.Url.ofText endpoint.address.toList with
  | .error cause => .error ((ErrorChain.root cause.message).within "builder error")
  | .ok url =>
    if isWeb url then
      .ok ⟨"POST", url, endpoint.headers, Text.Utf8.encode request.toJson.compact⟩
    else
      .error ((ErrorChain.root "URL scheme is not allowed").within
        ("builder error for url (" ++ url.text ++ ")"))

def decode (response : Http.Response) : Except ErrorChain Response :=
  if response.isSuccess then
    match (Text.Utf8.strict? response.body).bind Response.decoder.readText? with
    | some found => .ok found
    | none =>
      .error ((ErrorChain.root "error decoding response body").within
        "Failed to parse code search response as JSON")
  else
    .error (.root ("Code search API error (" ++ Http.statusText response.status ++ "): " ++
      String.ofList (Text.Utf8.lenient response.body)))

def source (endpoint : Endpoint) (network : Http.Network) : Source := fun request =>
  let unsent (cause : ErrorChain) : ErrorChain :=
    cause.within ("Failed to send search request to " ++ endpoint.address)
  match endpoint.httpRequest request with
  | .error cause => .now (.error (unsent cause))
  | .ok httpRequest => (network httpRequest).map fun outcome =>
    (outcome.mapError unsent).bind decode

end Endpoint

end CodeNav.Index
