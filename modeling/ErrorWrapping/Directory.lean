/-
Directories.

A directory holds files and folders by path. A path is a list of names separated by slashes,
where a lone dot stays in place and two dots go up, and it starts at the directory unless its
first character is a slash. Outside the directory there are at first only the root and the
folders that the directory lies in.
-/

namespace ErrorWrapping

inductive Fault where
  | notFound
  /-- A name inside a path belongs to a file. -/
  | notFolder
  | isFolder
  | nameTooLong
  | zeroInPath
  | notText
  deriving DecidableEq

def Fault.message : Fault → String
  | .notFound => "No such file or directory (os error 2)"
  | .notFolder => "Not a directory (os error 20)"
  | .isFolder => "Is a directory (os error 21)"
  | .nameTooLong => "File name too long (os error 36)"
  | .zeroInPath => "file name contained an unexpected NUL byte"
  | .notText => "stream did not contain valid UTF-8"

def textOf (bytes : ByteArray) : Except Fault String :=
  match String.fromUTF8? bytes with
  | some text => .ok text
  | none => .error .notText

inductive DirectoryEntry where
  | file (bytes : ByteArray)
  | folder

/-- Entries by the names that lead to them. Of two entries at one place the first counts. -/
structure Directory where
  entries : List (List String × DirectoryEntry)

namespace Directory

def empty : Directory := ⟨[]⟩

/-! ### Places -/

def root : List String := ["/"]

def encloses (place : List String) : Bool :=
  place.all (· = "..")

/-- The place that a name leads to from a folder. Above the root there is the root. -/
def step (place : List String) (name : String) : List String :=
  if name = "." then place
  else if name ≠ ".." then place ++ [name]
  else if encloses place then place ++ [".."]
  else if place = root then root
  else place.dropLast

def entry? (directory : Directory) (place : List String) : Option DirectoryEntry :=
  if encloses place || place = root then some .folder else directory.entries.lookup place

/-- Puts an entry at a place, and folders at the places above it that have no entry. -/
def put (directory : Directory) (place : List String) (entry : DirectoryEntry) : Directory :=
  let above := (List.range place.length).map (place.take ·)
  let missing := above.filter fun place => (directory.entry? place).isNone
  ⟨(place, entry) :: missing.map (·, .folder) ++ directory.entries⟩

/-! ### Paths -/

def pathLimit : Nat := 4095

def nameLimit : Nat := 255

def steps (path : String) : List String :=
  (path.splitOn "/").filter (· ≠ "")

def names (path : String) : List String :=
  (steps path).filter (· ≠ ".")

/-- The steps to a file that is read: a slash at the end asks for a folder, as a lone dot does. -/
def stepsToRead (path : String) : List String :=
  if path.endsWith "/" then steps path ++ ["."] else steps path

/-- The steps to a file that is written. No file is made under a name that a slash follows:
the folder around it answers, whatever the name is. -/
def stepsToWrite (path : String) : List String :=
  if path.endsWith "/" then (steps path).dropLast ++ ["."] else steps path

/-- Takes steps from a place. Each of them needs a folder to start from. -/
def follow (directory : Directory) (place : List String) : List String → Except Fault (List String)
  | [] => .ok place
  | name :: rest =>
    match directory.entry? place with
    | none => .error .notFound
    | some (.file _) => .error .notFolder
    | some .folder =>
      if nameLimit < name.utf8ByteSize then .error .nameTooLong
      else directory.follow (step place name) rest

def locate (directory : Directory) (path : String) (steps : List String) :
    Except Fault (List String) :=
  if path.any (· == '\x00') then .error .zeroInPath
  else if pathLimit < path.utf8ByteSize then .error .nameTooLong
  else directory.follow (if path.startsWith "/" then root else []) steps

/-! ### Files -/

def readBytes (directory : Directory) (path : String) : Except Fault ByteArray := do
  match directory.entry? (← directory.locate path (stepsToRead path)) with
  | none => .error .notFound
  | some .folder => .error .isFolder
  | some (.file bytes) => .ok bytes

def read (directory : Directory) (path : String) : Except Fault String := do
  textOf (← directory.readBytes path)

def write (directory : Directory) (path text : String) : Except Fault Directory := do
  let place ← directory.locate path (stepsToWrite path)
  match directory.entry? place with
  | some .folder => .error .isFolder
  | _ => .ok (directory.put place (.file text.toUTF8))

end Directory

end ErrorWrapping
