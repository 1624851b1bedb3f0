import Mathlib.Data.List.Basic

/-! `URL(string:)` at the app's deployment target: strings with characters a URL
does not allow, or with a broken percent escape, give nil; others are kept as written. -/
namespace MoviesApp

namespace URL

/-- Unreserved and reserved characters, and the percent sign. -/
def legal (c : Char) : Bool :=
  c.isAlphanum || ['-', '.', '_', '~', ':', '/', '?', '#', '[', ']', '@', '!', '$', '&', '\'', '(',
    ')', '*', '+', ',', ';', '=', '%'].contains c

def hexDigit (c : Char) : Bool :=
  c.isDigit || ('a' ≤ c && c ≤ 'f') || ('A' ≤ c && c ≤ 'F')

/-- Every percent sign is followed by two hexadecimal digits. -/
def escaped : List Char → Bool
  | [] => true
  | '%' :: a :: b :: rest => hexDigit a && hexDigit b && escaped rest
  | '%' :: _ => false
  | _ :: rest => escaped rest

def wellFormed (s : String) : Bool :=
  !s.toList.isEmpty && s.toList.all legal && escaped s.toList

end URL

structure URL where
  absoluteString : String
  valid : URL.wellFormed absoluteString = true
  deriving DecidableEq

/-- The initialiser `URL(string:)`. -/
def URL.ofString? (s : String) : Option URL :=
  if valid : wellFormed s = true then some ⟨s, valid⟩ else none

end MoviesApp
