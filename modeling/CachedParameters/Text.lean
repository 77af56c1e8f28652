/-!
# Texts, their blanks and their paths

All questions about a text are answered on its characters, so that a proof about a text is one about
a list. Three kinds of them are asked here.

* How a text begins and ends, what stands in it, and what it is in small letters. Only ASCII letters
  have a small form: a transform and a decrypt flag are recognised in any case of these and of no
  others.
* Where its blanks are. A character is blank if it has the Unicode property White_Space, and
  `Text.trim` drops the blanks at both ends and none inside.
* What it is as a path. The names of parameters are paths whose levels are set apart by slashes.
  `Path.isUnder` is how a store in memory answers `get_parameters_by_path`, and `Path.relative` is
  `relative_name` of the parameter store. The two treat the slashes at the end of a listed path
  differently: the former sets them aside, the latter strips the path as it was written.
-/

namespace CachedParameters.Text

/-! ### Starts and ends -/

/-- Whether `start` is a start of `text`. -/
def startsWith (text start : String) : Bool := start.toList.isPrefixOf text.toList

/-- Whether `ending` is an end of `text`. -/
def endsWith (text ending : String) : Bool := ending.toList.isSuffixOf text.toList

/-- Whether the characters `part` stand somewhere in a row. -/
def hasInfix (part : List Char) : List Char → Bool
  | [] => part.isEmpty
  | c :: rest => part.isPrefixOf (c :: rest) || hasInfix part rest

def contains (text part : String) : Bool := hasInfix part.toList text.toList

/-- What follows `start` in a list that begins with it. -/
def dropStart? (start characters : List Char) : Option (List Char) :=
  match start, characters with
  | [], characters => some characters
  | _ :: _, [] => none
  | s :: start, c :: characters => if s = c then dropStart? start characters else none

/-- A text with its ASCII capitals made small; other characters stay as they are. -/
def lower (text : String) : String := String.ofList (text.toList.map Char.toLower)

/-- What is left after a start is what has to be put behind it. -/
theorem dropStart?_eq_some_iff {start characters rest : List Char} :
    dropStart? start characters = some rest ↔ characters = start ++ rest := by
  induction start generalizing characters with
  | nil => simp [dropStart?]
  | cons s start ih =>
    cases characters with
    | nil => simp [dropStart?]
    | cons c characters =>
      rw [dropStart?]
      split
      · rename_i h
        subst h
        simp [ih]
      · rename_i h
        simp [Ne.symm h]

/-! ### Blanks -/

/-- The code points with the Unicode property White_Space, as ranges of first and last. -/
def blankRanges : List (Nat × Nat) :=
  [(0x09, 0x0D), (0x20, 0x20), (0x85, 0x85), (0xA0, 0xA0), (0x1680, 0x1680), (0x2000, 0x200A),
    (0x2028, 0x2029), (0x202F, 0x202F), (0x205F, 0x205F), (0x3000, 0x3000)]

/-- Whether a character is white space, as `trim` takes it: the `White_Space` property of
Unicode. -/
def isBlank (c : Char) : Bool :=
  blankRanges.any fun range => range.1 ≤ c.toNat && c.toNat ≤ range.2

/-- The characters of a text without the blanks at both ends. -/
def trimBlanks (characters : List Char) : List Char :=
  ((characters.dropWhile isBlank).reverse.dropWhile isBlank).reverse

/-- A text without the white space at both ends. -/
def trim (text : String) : String := String.ofList (trimBlanks text.toList)

end CachedParameters.Text

/-! ### Paths -/

namespace CachedParameters.Path

/-- The start that names under a path have in common. -/
def directory (path : String) : List Char :=
  (path.toList.reverse.dropWhile (· == '/')).reverse ++ ['/']

/-- Whether a name lies under a path, directly so unless `recursive`. -/
def isUnder (path : String) (recursive : Bool) (name : String) : Bool :=
  match Text.dropStart? (directory path) name.toList with
  | some rest => !rest.isEmpty && (recursive || !rest.contains '/')
  | none => false

/-- A name relative to a path that was listed: without the path, if it begins with it, and
without the slashes that are then in front. -/
def relative (path name : String) : String :=
  String.ofList <|
    ((Text.dropStart? path.toList name.toList).getD name.toList).dropWhile (· == '/')

end CachedParameters.Path
