/-! # Errors with context

An error tells what was attempted, then why that failed, and so on to its root.
-/

namespace CodeNav

structure ErrorChain where
  outermost : String
  causes : List String
  deriving DecidableEq, Repr

namespace ErrorChain

def root (message : String) : ErrorChain := ⟨message, []⟩

/-- Tells what was attempted when the error came up. -/
def within (error : ErrorChain) (context : String) : ErrorChain :=
  ⟨context, error.outermost :: error.causes⟩

def links (error : ErrorChain) : List String := error.outermost :: error.causes

def text (error : ErrorChain) : String := ": ".intercalate error.links

end ErrorChain

end CodeNav
