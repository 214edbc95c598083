/-! # Case of ASCII letters

Names of settings and modes compare without regard to the case of ASCII letters; all other
characters have to agree.
-/

namespace CodeNav.Text

def asciiLower (text : String) : String := text.map Char.toLower

def equalsIgnoringAsciiCase (a b : String) : Bool := asciiLower a == asciiLower b

end CodeNav.Text
