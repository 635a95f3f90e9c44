/-
  The command line.

  The files that a call may look at are read first; what the call does is then
  computed from them and printed.
-/
import AnnotationOrder.Command.Run

namespace AnnotationOrder

open Project

/-- A tree with what stands at a location on the disk, and with the sources below it.  A file that
    cannot be read stands there as a directory, so that it is reported as unreadable. -/
partial def readPlace (tree : Tree) (l : Location) : IO Tree := do
  let place := (← IO.currentDir) / (Path.ofLocation l).text
  if ← place.isDir then
    let mut grown := tree.makeDirectories l
    for entry in ← place.readDir do
      let name := entry.fileName
      let isDirectory := (← entry.path.symlinkMetadata).type == .dir
      if endsAsSource name || name == Lint.Rules.fileName
          || (isDirectory && !skippedDirectories.contains name) then
        grown ← readPlace grown (l ++ [name])
    return grown
  else if ← place.pathExists then
    try
      return tree.write l (← IO.FS.readBinFile place).toList
    catch _ => return tree.makeDirectories l
  else return tree

/-- The workspace that a call sees: the current directory, and what its words lead to. -/
def readWorkspace (words : List String) : IO Project.Workspace := do
  let current := (Path.ofText (← IO.currentDir).toString).names
  let mut tree ← readPlace .empty current
  for word in words do
    for text in word :: (Command.nameAndValue word).2.toList do
      tree ← readPlace tree ((Path.ofText text).location current)
  return { tree, current }

end AnnotationOrder

/-- Prints what a call says and ends with its exit code. -/
def main (args : List String) : IO UInt32 := do
  let outcome := AnnotationOrder.Command.call (← AnnotationOrder.readWorkspace args) args
  IO.print outcome.output
  IO.eprint outcome.errors
  if let some e := outcome.fault then
    IO.eprintln e.text
  return outcome.exitCode.toUInt32
