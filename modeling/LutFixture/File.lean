import LutFixture.Configuration.JsonText
import LutFixture.Stimulus.JsonText
import LutFixture.Stimulus.LineText
import LutFixture.Text.Pieces

/-!
# Files

What may be found under a file name, and what it stands for. The extension of the name decides the
format of a stimulus; a configuration is always JSON.
-/

namespace LutFixture

/-- What is found under a file name. -/
inductive File where
  /-- Nothing. -/
  | absent
  /-- A directory. -/
  | directory
  /-- Nothing, for the name leads through something that is no directory. -/
  | throughFile
  /-- Nothing, for the name is longer than names may be. -/
  | nameTooLong
  /-- Something that the system does not hand out. -/
  | unreadable (reason : String)
  /-- A file with these contents. -/
  | contents (bytes : ByteArray)

namespace File

/-- The text of a file. -/
def text : File → Except FileFault String
  | .absent => .error .absent
  | .directory => .error .directory
  | .throughFile => .error .notDirectory
  | .nameTooLong => .error .nameTooLong
  | .unreadable reason => .error (.unreadable reason)
  | .contents bytes =>
    match String.fromUTF8? bytes with
    | some s => .ok s
    | none => .error .notText

/-- The name that a path ends in. Slashes behind it do not count, nor does a single dot, which stays
where it is. -/
def baseName (path : List Char) : List Char :=
  ((Text.pieces '/' path).reverse.find? fun name => name != [] && name != ['.']).getD []

/-- What stands behind the last dot of a file name, unless that dot is the first character of the
name. -/
def extension? (name : List Char) : Option (List Char) :=
  if name = ['.', '.'] then none
  else
    let ext := (name.reverse.takeWhile (· != '.')).reverse
    if name.length - ext.length ≤ 1 then none else some ext

/-- The name asks for the JSON format. The case of its letters does not matter. -/
def isJsonName (path : String) : Bool :=
  match extension? (baseName path.toList) with
  | some ext => ext.map Char.toLower == ['j', 's', 'o', 'n']
  | none => false

/-- What a reader makes of the text of a file. -/
def read {α : Type} (f : File) (reader : String → Except Fault α) : Except Fault α :=
  match f.text with
  | .error e => .error (.file e)
  | .ok text => reader text

/-- The reader for the stimulus format that a file name asks for. -/
def stimulusReader (path : String) : String → Except Fault Stimulus :=
  if isJsonName path then Stimulus.ofJson else Stimulus.ofText

/-- The stimulus in a file. -/
def stimulus (path : String) (f : File) : Except Fault Stimulus := f.read (stimulusReader path)

/-- The configuration in a file. -/
def configuration (f : File) : Except Fault Configuration := f.read Configuration.ofJson

@[simp] theorem text_contents_toUTF8 (s : String) : (contents s.toUTF8).text = .ok s := by
  have hs : String.fromUTF8? s.toUTF8 = some s := dif_pos s.isValidUTF8
  rw [text, hs]

end File

end LutFixture
