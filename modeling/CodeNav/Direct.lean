import CodeNav.Backend
import CodeNav.Checkout.Scan
import CodeNav.Index.Exchange
import CodeNav.Repository.Remote
import CodeNav.Settings.Basic

/-! # Direct search

A direct search asks the index itself and places the hits of its response in the local checkout.
-/

namespace CodeNav

abbrev Index.Source := Index.Request → Reply Index.Response

structure Direct where
  root : String
  /-- The restrictions that every request carries. -/
  filters : List (String × List String)
  extension? : Option String

namespace Direct

def ofRepository (repository : Repository) (settings : Settings) : Direct :=
  ⟨repository.root, repository.searchFilters settings.branch, settings.fileExtension?⟩

def request (direct : Direct) (query : Query) : Index.Request where
  searchText := query.searchText direct.extension?
  skip := 0
  top := query.maxResults
  filters := direct.filters
  includeFacets := false

def place (direct : Direct) (tree : FileTree) (query : Query) (response : Index.Response) :
    Except ErrorChain (List Symbol) :=
  let scanner : Checkout.Scanner := ⟨direct.root, LineEnding.default, query.criterion⟩
  (scanner.scan tree (fun _ => false) (Checkout.groupByPath response.hits)).mapError (·.chain)

def search (direct : Direct) (source : Index.Source) (tree : FileTree) (query : Query) :
    Reply (List Symbol) :=
  (source (direct.request query)).map fun outcome => outcome.bind (direct.place tree query)

def backend (direct : Direct) (source : Index.Source) (tree : FileTree) : Backend where
  search := direct.search source tree
  warmUp := (direct.search source tree Backend.warmUpQuery).map (·.map fun _ => ())

end Direct

end CodeNav
