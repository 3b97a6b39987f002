/-
This file follows paths through a folder of files.
-/

import ScriptMachine.Fault

namespace ScriptMachine

/-- A folder holds files under the parts of their paths. -/
abbrev Folder (Content : Type) := List (List String × Content)

namespace Folder

/-- A path leads to a place in the folder or to the folders around it. -/
inductive Spot where
  | inside (parts : List String)
  | around
deriving DecidableEq

def longestPart : Nat := 255

def longestPath : Nat := 4095

def split (path : String) : List String := path.splitOn "/"

variable {Content : Type}

def file? (folder : Folder Content) : Spot → Option Content
  | .inside parts => folder.lookup parts
  | .around => none

/-- A folder is known by the files in it. The outermost one is there even when it is empty. -/
def isFolder (folder : Folder Content) (parts : List String) : Bool :=
  parts.isEmpty || folder.any fun entry =>
    parts.isPrefixOf entry.1 && parts.length < entry.1.length

/-- One part of a path is followed from a place that must be a folder. -/
def follow (folder : Folder Content) (spot : Spot) (part : String) : Except Fault Spot :=
  if (folder.file? spot).isSome then .error .notAFolder
  else if part.isEmpty || part == "." then .ok spot
  else match spot with
    | .around => if part == ".." then .ok .around else .error .missingFile
    | .inside parts =>
        let reached := parts ++ [part]
        if part == ".." then .ok (if parts.isEmpty then .around else .inside parts.dropLast)
        else if longestPart < part.utf8ByteSize then .error .nameTooLong
        else if (folder.file? (.inside reached)).isSome || folder.isFolder reached then
          .ok (.inside reached)
        else .error .missingFile

def walk (folder : Folder Content) : Spot → List String → Except Fault Spot
  | spot, [] => .ok spot
  | spot, part :: rest => do
      let next ← folder.follow spot part
      folder.walk next rest

/-- A path that begins with a slash begins outside the folder. -/
def read (folder : Folder Content) (path : String) : Except Fault Content :=
  if path.contains '\x00' then .error .unnameable
  else if longestPath < path.utf8ByteSize then .error .nameTooLong
  else if path.isEmpty then .error .missingFile
  else do
    let start : Spot := if path.startsWith "/" then .around else .inside []
    let spot ← folder.walk start (split path)
    match folder.file? spot with
    | some content => .ok content
    | none => .error .notAFile

end Folder

end ScriptMachine
