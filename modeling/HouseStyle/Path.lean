/-
HouseStyle.Path — names of files.

A path is the row of names between its slashes. Empty names and single dots do not count, double
dots stay, and the empty path is the directory in which the program runs. What is found under a
path is a `Disk`: files with their bytes, directories with the names of all files below them.

Names and paths have a longest length in bytes. A name that is too long cannot be looked up, which
shows only where the directory that should hold it exists.
-/
import HouseStyle.Text.Quoted

namespace HouseStyle

/-- A path: the slashes in front, of which there are none, one or two, and the names. -/
structure Path where
  root : String := ""
  names : List String
  deriving DecidableEq, Repr

namespace Path

/-- The slashes in front of a path: two are kept, more than two are one. -/
def rootOf (t : Text) : String :=
  match (t.takeWhile (· == '/')).length with
  | 0 => ""
  | 2 => "//"
  | _ => "/"

def ofString (s : String) : Path :=
  let names := (s.toList.splitOnP (· == '/')).map Text.shown
  ⟨rootOf s.toList, names.filter fun n => n != "" && n != "."⟩

def text (p : Path) : String :=
  if p.root = "" && p.names.isEmpty then "." else p.root ++ "/".intercalate p.names

def below (p : Path) (names : List String) : Path := { p with names := p.names ++ names }

def maxNameBytes : Nat := 255

def maxPathBytes : Nat := 4095

def isLongName (name : String) : Bool := maxNameBytes < name.utf8ByteSize

def isLong (p : Path) : Bool := maxPathBytes < p.text.utf8ByteSize

/-- The text ends in a slash, or in a single dot behind one, and so can only name a directory. -/
def namesDirectory (s : String) : Bool :=
  match (s.toList.splitOnP (· == '/')).reverse with
  | last :: _ :: _ => last == [] || last == ['.']
  | _ => false

def namesFile (s : String) : Bool := !namesDirectory s && s.utf8ByteSize ≤ maxPathBytes

def hasNul (s : String) : Bool := s.toList.contains (Char.ofNat 0)

/-- A fault at a path: its number, its words and the path in quotes. -/
def fault (p : Path) (number : Nat) (words : String) : String :=
  s!"[Errno {number}] {words}: {quotedString p.text}"

def sourceSuffixes : List String := [".css", ".scss"]

/-- The name is that of a stylesheet: something stands in front of one of the endings. -/
def isSourceName (name : String) : Bool :=
  sourceSuffixes.any fun suffix =>
    suffix.toList.isSuffixOf name.toList && suffix.length < name.length

end Path

/-- A path that cannot be looked up for its length, or for that of a name. -/
structure NameTooLong where
  path : Path
  deriving DecidableEq, Repr

def NameTooLong.message (e : NameTooLong) : String := e.path.fault 36 "File name too long"

/-- What is found under a path. -/
inductive Found where
  | missing
  | nameTooLong
  /-- Something in front of the last name is a file. -/
  | notDirectory
  | file (bytes : List UInt8)
  /-- The files below the directory, at all levels, by the names that lead to them. -/
  | directory (files : List (List String))
  deriving Repr

/-- What is found under every path. -/
abbrev Disk := Path → Found

namespace Disk

/-- The row of names does not come behind the other: name by name, each by code point. -/
def namesLE : List String → List String → Bool
  | [], _ => true
  | _ :: _, [] => false
  | a :: as, b :: bs =>
    match compare a b with
    | .lt => true
    | .eq => namesLE as bs
    | .gt => false

/-- The stylesheets below a directory, in order of their names. -/
def sourcesBelow (p : Path) (files : List (List String)) : List Path :=
  let sources := files.filter fun names => names.getLast?.any Path.isSourceName
  (sources.mergeSort namesLE).map p.below

/-- The files that an argument stands for: the stylesheets below a directory, or the path itself. -/
def expandOne (disk : Disk) (argument : String) : Except NameTooLong (List Path) :=
  let p := Path.ofString argument
  match disk p with
  | .directory files => .ok (sourcesBelow p files)
  | .nameTooLong => .error ⟨p⟩
  | _ => .ok [p]

/-- The files that the arguments stand for, each once, in the order in which they first come. -/
def expand (disk : Disk) (arguments : List String) : Except NameTooLong (List Path) :=
  (arguments.mapM disk.expandOne).map fun found => found.flatten.eraseDups

/-! ## A disk from a list of files -/

/-- A file with its bytes, or a directory, by the names that lead to it. -/
abbrev Entry := List String × Option (List UInt8)

def bytesAt? (entries : List Entry) (names : List String) : Option (List UInt8) :=
  (entries.find? fun e => e.1 == names && e.2.isSome).bind (·.2)

def isDirectory (entries : List Entry) (names : List String) : Bool :=
  names.isEmpty ||
    entries.any fun e =>
      names.isPrefixOf e.1 && (e.2.isNone || names.length < e.1.length)

def walk (entries : List Entry) (here : List String) : List String → Found ⊕ List String
  | [] => .inr here
  | name :: rest =>
    if !isDirectory entries here then
      .inl (if (bytesAt? entries here).isSome then .notDirectory else .missing)
    else if name = ".." then
      if here.isEmpty then .inl .missing else walk entries here.dropLast rest
    else if Path.isLongName name then .inl .nameTooLong
    else walk entries (here ++ [name]) rest

/-- What is found under a path from the root, where nothing is: the first name may be too long. -/
def atRoot (names : List String) : Found :=
  match names.find? (· != "..") with
  | some name => if Path.isLongName name then .nameTooLong else .missing
  | none => .missing

def ofEntries (entries : List Entry) : Disk := fun p =>
  if Path.hasNul p.text then .missing
  else if p.isLong then .nameTooLong
  else if p.root ≠ "" then atRoot p.names
  else
    match walk entries [] p.names with
    | .inl found => found
    | .inr names =>
      match bytesAt? entries names with
      | some bytes => .file bytes
      | none =>
        if isDirectory entries names then
          .directory <| entries.filterMap fun e =>
            if e.2.isSome && names.isPrefixOf e.1 then some (e.1.drop names.length) else none
        else .missing

end Disk

end HouseStyle
