import BehaviouralTypes.CommandLine.Run
import BehaviouralTypes.Text.Search

/-!
# A directory as a table

A directory that holds files and nothing else, as a host for runs. It answers as the system does:
a path is followed part by part, two dots lead to the folder above, and of the folders above
nothing is known but that they hold each other and the directory.
-/

namespace BehaviouralTypes

namespace SystemError

/-- There is no such file. -/
def notFound : SystemError := ⟨2, "NotFound", "No such file or directory"⟩

/-- A part of a path other than the last is a file. -/
def notDirectory : SystemError := ⟨20, "NotADirectory", "Not a directory"⟩

/-- A directory stands where a file is wanted. -/
def isDirectory : SystemError := ⟨21, "IsADirectory", "Is a directory"⟩

/-- The name of a file has more than 255 bytes, or a path has 4096 or more. -/
def nameTooLong : SystemError := ⟨36, "InvalidFilename", "File name too long"⟩

end SystemError

/-- Files by name. A name without a slash is that of a file in the directory. -/
structure Directory where
  /-- The names and contents of the files. -/
  files : List (String × ByteArray)

/-- What a path leads to. -/
inductive Place where
  /-- A file under the name by which the table knows it, whether it exists or not. -/
  | entry (name : String)
  /-- Nothing that can be read or written, and what the system says to either attempt. -/
  | nowhere (reading writing : SystemError)

/-- Where the parts of a path are looked up. -/
inductive Folder where
  /-- So many levels above the directory; the directory itself at level zero. -/
  | above (levels : Nat)
  /-- The top of the file system. -/
  | top

namespace Folder

/-- The folder that holds the folder; the top holds itself. -/
def parent : Folder → Folder
  | above levels => above (levels + 1)
  | top => top

/-- The name by which the table knows a file of the folder. -/
def nameOf (file : String) : Folder → String
  | above levels => String.join (List.replicate levels "../") ++ file
  | top => "/" ++ file

end Folder

namespace Directory

/-- The contents of a file. -/
def find? (d : Directory) (name : String) : Option ByteArray := d.files.lookup name

/-- The parts of a path between slashes. -/
def parts (path : String) : List String :=
  ((Text.fields '/' path.toList).filter (· ≠ [])).map String.ofList

/-- What a part of a path leads to in the folder when it cannot be looked into, either because
the path goes on behind it or because a slash says that it should be a folder. -/
def obstacle (d : Directory) (folder : Folder) (part : String) : SystemError :=
  if 255 < part.utf8ByteSize then .nameTooLong
  else if (d.find? (folder.nameOf part)).isSome then .notDirectory
  else .notFound

/-- What the parts of a path lead to from the folder; `slash` says that the path ends in one. -/
def walk (d : Directory) (slash : Bool) (folder : Folder) : List String → Place
  | [] => .nowhere .isDirectory .isDirectory
  | "." :: rest => d.walk slash folder rest
  | ".." :: rest => d.walk slash folder.parent rest
  | [part] =>
    if slash then .nowhere (d.obstacle folder part) .isDirectory
    else if 255 < part.utf8ByteSize then .nowhere .nameTooLong .nameTooLong
    else .entry (folder.nameOf part)
  | part :: _ => .nowhere (d.obstacle folder part) (d.obstacle folder part)

/-- What a path leads to. -/
def locate (d : Directory) (path : String) : Place :=
  if path.isEmpty then .nowhere .notFound .notFound
  else if 4096 ≤ path.utf8ByteSize then .nowhere .nameTooLong .nameTooLong
  else d.walk (path.endsWith "/") (if path.startsWith "/" then .top else .above 0) (parts path)

/-- The contents of the file that a path leads to. -/
def read (d : Directory) (path : String) : Except SystemError ByteArray :=
  match d.locate path with
  | .entry name => match d.find? name with
    | some contents => .ok contents
    | none => .error .notFound
  | .nowhere reading _ => .error reading

/-- The files with these contents under that name. -/
def put (name : String) (contents : ByteArray) :
    List (String × ByteArray) → List (String × ByteArray)
  | [] => [(name, contents)]
  | (known, old) :: rest =>
    if known = name then (name, contents) :: rest else (known, old) :: put name contents rest

/-- The directory after writing to the file that a path leads to. -/
def write (d : Directory) (path : String) (text : String) : Except SystemError Directory :=
  match d.locate path with
  | .entry name => .ok ⟨put name text.toUTF8 d.files⟩
  | .nowhere _ writing => .error writing

/-- Runs in the directory with that standard input. -/
def host (input : ByteArray) : Host (StateM Directory) where
  readInput := return .ok input
  readFile path := return (← get).read path
  writeFile path text := do
    match (← get).write path text with
    | .ok d => set d; return .ok ()
    | .error e => return .error e

end Directory

/-- The outcome of a run in a directory, and the directory afterwards. -/
def Options.runIn (o : Options) (d : Directory) (input : ByteArray) : Outcome × Directory :=
  (o.run (Directory.host input)).run d

end BehaviouralTypes
