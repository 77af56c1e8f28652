import CachedParameters.Error
import CachedParameters.Text
import CachedParameters.Time

/-!
# Settings

Process-wide defaults, read from the variables `PARAMSTORE_MAX_AGE` and `PARAMSTORE_SSM_DECRYPT`
(`from_lookup`, `parse_flag`). The freshness window is read first, and when it is malformed the
decrypt flag is not asked for. To say which variables a reading asks for, it goes through a look-up
with a state, which may write down its questions: `Settings.read` lets it do so.
-/

namespace CachedParameters

/-- How old a cached value may be unless something else is said. -/
def defaultMaxAge : Duration := .ofSeconds 5

/-- Defaults for all providers of a process: how old a cached value may be, and whether the
parameter store decrypts. -/
structure Settings where
  maxAge : Duration := defaultMaxAge
  decrypt : Bool := false
  deriving DecidableEq, Repr

namespace Settings

/-- The truth value that a word stands for, in any case of its letters (`parse_flag`). -/
def flag? (text : String) : Option Bool :=
  let word := Text.lower (Text.trim text)
  if ["true", "1", "yes", "on"].contains word then some true
  else if ["false", "0", "no", "off"].contains word then some false
  else none

/-- Reads a freshness window: whole seconds of an unsigned word. -/
def readMaxAge (text : String) : Except Error Duration :=
  match Numeral.read Numeral.wordBound (Text.trim text) with
  | .ok seconds => .ok (.ofSeconds seconds)
  | .error reason => .error (.invalidMaxAge text reason)

/-- Reads a decrypt flag. If it is none of the words, the message quotes the whole text, blanks
included. -/
def readDecrypt (text : String) : Except Error Bool :=
  match flag? text with
  | some decrypt => .ok decrypt
  | none => .error (.invalidDecrypt text)

/-- A reading of a variable, or its default if the variable is not set. -/
def readOr {α : Type} (default : α) (read : String → Except Error α) :
    Option String → Except Error α
  | some text => read text
  | none => .ok default

/-- A look-up of variables with a state of its own. One that answers from the variables of a process
needs none, and one that writes down what it is asked for keeps that in its state. -/
abbrev Variables (σ : Type) := String → σ → Option String × σ

/-- A look-up that writes down the variables that it is asked for, in order. -/
def logged (lookup : String → Option String) : Variables (List String) :=
  fun name asked => (lookup name, asked ++ [name])

/-- Reads the settings through a look-up (`from_lookup`). The freshness window comes first, and if
it is malformed the decrypt flag is not asked for. -/
def readThrough {σ : Type} (ask : Variables σ) (s : σ) : Except Error Settings × σ :=
  let (setting, s) := ask maxAgeVariable s
  match readOr defaultMaxAge readMaxAge setting with
  | .error e => (.error e, s)
  | .ok maxAge =>
    let (setting, s) := ask decryptVariable s
    match readOr false readDecrypt setting with
    | .error e => (.error e, s)
    | .ok decrypt => (.ok ⟨maxAge, decrypt⟩, s)

/-- The outcome of reading the settings, and the variables that were asked for, in order. -/
structure Reading where
  asked : List String
  outcome : Except Error Settings

/-- Reads the settings from the variables that `lookup` knows. What was asked for is what the
look-up has written down of it. -/
def read (lookup : String → Option String) : Reading :=
  let (outcome, asked) := readThrough (logged lookup) []
  ⟨asked, outcome⟩

/-- The settings that the variables give, without a word about which of them were asked for. -/
def ofVariables (lookup : String → Option String) : Except Error Settings :=
  (read lookup).outcome

end Settings

end CachedParameters
