import CodeNav.Backend
import CodeNav.Http.Url

/-! # Requests and responses of the web

A network answers a request with a response, after some time, or fails.
-/

namespace CodeNav.Http

structure Request where
  method : String
  url : Url
  /-- The headers by their names, which are in lower case. -/
  headers : List (String × String)
  body : List UInt8
  deriving DecidableEq, Repr

structure Response where
  status : Nat
  body : List UInt8
  deriving DecidableEq, Repr

namespace Response

def isSuccess (response : Response) : Bool := decide (200 ≤ response.status ∧ response.status < 300)

end Response

abbrev Network := Request → Reply Response

def reasonPhrases : List (Nat × String) := [
  (100, "Continue"), (101, "Switching Protocols"), (102, "Processing"), (200, "OK"),
  (201, "Created"), (202, "Accepted"), (203, "Non Authoritative Information"),
  (204, "No Content"), (205, "Reset Content"), (206, "Partial Content"), (207, "Multi-Status"),
  (208, "Already Reported"), (226, "IM Used"), (300, "Multiple Choices"),
  (301, "Moved Permanently"), (302, "Found"), (303, "See Other"), (304, "Not Modified"),
  (305, "Use Proxy"), (307, "Temporary Redirect"), (308, "Permanent Redirect"),
  (400, "Bad Request"), (401, "Unauthorized"), (402, "Payment Required"), (403, "Forbidden"),
  (404, "Not Found"), (405, "Method Not Allowed"), (406, "Not Acceptable"),
  (407, "Proxy Authentication Required"), (408, "Request Timeout"), (409, "Conflict"),
  (410, "Gone"), (411, "Length Required"), (412, "Precondition Failed"),
  (413, "Payload Too Large"), (414, "URI Too Long"), (415, "Unsupported Media Type"),
  (416, "Range Not Satisfiable"), (417, "Expectation Failed"), (418, "I'm a teapot"),
  (421, "Misdirected Request"), (422, "Unprocessable Entity"), (423, "Locked"),
  (424, "Failed Dependency"), (425, "Too Early"), (426, "Upgrade Required"),
  (428, "Precondition Required"), (429, "Too Many Requests"),
  (431, "Request Header Fields Too Large"), (451, "Unavailable For Legal Reasons"),
  (500, "Internal Server Error"), (501, "Not Implemented"), (502, "Bad Gateway"),
  (503, "Service Unavailable"), (504, "Gateway Timeout"), (505, "HTTP Version Not Supported"),
  (506, "Variant Also Negotiates"), (507, "Insufficient Storage"), (508, "Loop Detected"),
  (510, "Not Extended"), (511, "Network Authentication Required")]

def statusText (status : Nat) : String :=
  toString status ++ " " ++ (reasonPhrases.lookup status).getD "<unknown status code>"

def sendFailure (url : Url) (cause : ErrorChain) : ErrorChain :=
  cause.within ("error sending request for url (" ++ url.text ++ ")")

/-- A machine without any connection: names are not resolved, and no address is reached. -/
def offline : Network := fun request =>
  let cause : ErrorChain :=
    if request.url.hasAddress then
      (ErrorChain.root "Network is unreachable (os error 101)").within "tcp connect error"
    else
      (ErrorChain.root
        "failed to lookup address information: Temporary failure in name resolution").within
        "dns error"
  .now (.error (sendFailure request.url (cause.within "client error (Connect)")))

end CodeNav.Http
