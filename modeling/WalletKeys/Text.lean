/-!
# Texts

The case of a text is that of its ASCII letters; letters outside ASCII have no case here and stand
as they are. Blank is what has the Unicode property `White_Space`. A text is cut at a separator, or
at a count of the octets that it has in UTF-8, which has to lie between two characters.
-/

namespace WalletKeys.Text

/-- The text with its ASCII letters in lower case. -/
def lowercase (text : String) : String :=
  String.ofList (text.toList.map Char.toLower)

/-- The text with its ASCII letters in upper case. -/
def uppercase (text : String) : String :=
  String.ofList (text.toList.map Char.toUpper)

def hasLowercase (text : String) : Bool :=
  text.toList.any Char.isLower

def hasUppercase (text : String) : Bool :=
  text.toList.any Char.isUpper

/-- The characters with the property `White_Space`. -/
def isBlank (character : Char) : Bool :=
  let code := character.toNat
  (0x9 ≤ code && code ≤ 0xd) || code == 0x20 || code == 0x85 || code == 0xa0 || code == 0x1680 ||
    (0x2000 ≤ code && code ≤ 0x200a) || code == 0x2028 || code == 0x2029 || code == 0x202f ||
    code == 0x205f || code == 0x3000

/-- The characters between the first and the last that is not blank. -/
def trimBlanks (characters : List Char) : List Char :=
  ((characters.dropWhile isBlank).reverse.dropWhile isBlank).reverse

def trim (text : String) : String :=
  String.ofList (trimBlanks text.toList)

/-- What stands before and after the first separator. -/
def splitFirst? (separator : Char) : List Char → Option (List Char × List Char)
  | [] => none
  | character :: rest =>
      if character = separator then some ([], rest)
      else (splitFirst? separator rest).map fun parts => (character :: parts.1, parts.2)

/-- What stands before and after the last separator. -/
def splitLast? (separator : Char) : List Char → Option (List Char × List Char)
  | [] => none
  | character :: rest =>
      match splitLast? separator rest with
      | some parts => some (character :: parts.1, parts.2)
      | none => if character = separator then some ([], rest) else none

/-- The parts between the separators, of which there is one more than there are separators. -/
def splitAll (separator : Char) : List Char → List (List Char)
  | [] => [[]]
  | character :: rest =>
      match splitAll separator rest with
      | [] => [[character]]
      | part :: parts =>
          if character = separator then [] :: part :: parts
          else (character :: part) :: parts

/-- How many octets the characters have in UTF-8. -/
def octetCount : List Char → Nat
  | [] => 0
  | character :: rest => character.utf8Size + octetCount rest

/-- The characters before and behind so many octets. There are none if that place is inside a
character or beyond the end. -/
def cut? : (count : Nat) → List Char → Option (List Char × List Char)
  | 0, characters => some ([], characters)
  | _ + 1, [] => none
  | count + 1, character :: rest =>
      if character.utf8Size ≤ count + 1 then
        (cut? (count + 1 - character.utf8Size) rest).map fun parts =>
          (character :: parts.1, parts.2)
      else none

end WalletKeys.Text
