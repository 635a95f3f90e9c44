/-
  A tree as it is seen from a current directory.

  A path is followed name by name: each step starts from a directory and leads
  to something that exists.  So `A.java/..` leads nowhere when `A.java` is a
  file.

  * `Workspace.entry?`: what a path leads to;
  * `Workspace.entryAtText?`: what a text leads to, where a slash at the end asks
    for a directory;
  * `Workspace.below`: the locations below a directory.
-/
import AnnotationOrder.Project.Tree
import AnnotationOrder.Yaml.Setting

namespace AnnotationOrder.Project

/-- A tree with a current directory. -/
structure Workspace where
  tree : Tree
  current : Location
  /-- The setting in which the files are read. -/
  setting : Yaml.Setting := {}
  deriving Inhabited

namespace Tree

/-- Where names lead, as long as there is a directory to go on from. -/
def reach? (t : Tree) (l : Location) : List String → Option Location
  | [] => some l
  | name :: names =>
    if t.isDirectory l && (t.entry? (l.step name)).isSome then t.reach? (l.step name) names
    else none

end Tree

namespace Workspace

/-- The location of what a path leads to. -/
def place? (w : Workspace) (p : Path) : Option Location := w.tree.reach? (p.start w.current) p.names

/-- What a path leads to. -/
def entry? (w : Workspace) (p : Path) : Option Entry := (w.place? p).bind w.tree.entry?

/-- What a text leads to. -/
def entryAtText? (w : Workspace) (s : String) : Option Entry :=
  if s.isEmpty then none
  else (w.tree.reach? ((Path.ofText s).start w.current) (Path.pieces s)).bind w.tree.entry?

/-- The bytes of the file that a path leads to. -/
def file? (w : Workspace) (p : Path) : Option (List UInt8) := (w.place? p).bind w.tree.file?

/-- Whether a path leads to a file. -/
def isFile (w : Workspace) (p : Path) : Bool := (w.file? p).isSome

/-- What leads from a path to all that is strictly below it. -/
def below (w : Workspace) (p : Path) : List Location := ((w.place? p).map w.tree.below).getD []

/-- The place where files can be written. -/
def target (w : Workspace) (p : Path) : Location := p.location w.current

/-- A directory, with the directories on the way to it. -/
def makeDirectories (w : Workspace) (p : Path) : Workspace :=
  { w with tree := w.tree.makeDirectories (w.target p) }

/-- A file, new or in place of the one there. -/
def write (w : Workspace) (p : Path) (bytes : List UInt8) : Workspace :=
  { w with tree := w.tree.write (w.target p) bytes }

/-- A path without what it leads to and all below. -/
def erase (w : Workspace) (p : Path) : Workspace := { w with tree := w.tree.erase (w.target p) }

/-- A workspace whose current directory is empty. -/
def emptyAt (current : Location) : Workspace := { tree := Tree.empty.makeDirectories current, current }

end Workspace

end AnnotationOrder.Project
