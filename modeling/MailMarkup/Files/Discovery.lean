import MailMarkup.Files.Glob
import MailMarkup.Files.Tree

/-!
# Finding files

The files that are given, or lie below a directory that is given, and pass a filter. Links are not
followed unless the filter says so.
-/
namespace MailMarkup

structure FileFilter where
  /-- Lower case, without a point. -/
  extensions : List Text := ["html".toList, "htm".toList]
  excluded : Path → Bool := fun _ => false
  included : Path → Bool := fun _ => true
  /-- How many levels of directories are entered below a directory that is given. -/
  maxDepth : Option Nat := none
  followLinks : Bool := false

namespace FileFilter

def normalExtension (t : Text) : Text := Text.lower (t.dropWhile (· == '.'))

def withExtensions (f : FileFilter) (extensions : List Text) : FileFilter :=
  { f with extensions := extensions.map normalExtension }

def readGlobs (kind : String) (patterns : List Text) : Except SettingsError (List Glob) :=
  patterns.mapM fun t =>
    match Glob.read t with
    | .ok g => .ok g
    | .error e =>
      let pattern := String.ofList t
      .error (.invalid ("Invalid " ++ kind ++ " pattern '" ++ pattern ++
        "': error parsing glob '" ++ pattern ++ "': " ++ e.message))

/-- Keeps only files that fit one of the patterns, if there are any. -/
def withIncluded (f : FileFilter) (patterns : List Text) : Except SettingsError FileFilter :=
  (readGlobs "include" patterns).map fun gs =>
    { f with included := fun p => gs.isEmpty || gs.any (·.accepts p) }

def withExcluded (f : FileFilter) (patterns : List Text) : Except SettingsError FileFilter :=
  (readGlobs "exclude" patterns).map fun gs => { f with excluded := fun p => gs.any (·.accepts p) }

def accepts (f : FileFilter) (p : Path) : Bool :=
  match p.extension? with
  | none => false
  | some x => f.extensions.contains (Text.lower x) && !f.excluded p && f.included p

def stopsAt (f : FileFilter) (depth : Nat) : Bool := f.maxDepth.any (· ≤ depth)

def keep (f : FileFilter) (p : Path) : List Path := if f.accepts p then [p] else []

mutual

/-- The files of a directory that pass. `place` is where the directory is, `dir` is how it was
reached, with `links` links left to follow. What cannot be reached that way is passed over. -/
def walk (f : FileFilter) (root : FileEntry) (links depth : Nat) (place : List Text) (dir : Path) :
    List (Text × FileEntry) → List Path
  | [] => []
  | (n, e) :: es =>
    let p := dir.child n
    (if (FileTree.pathFault? p).isSome then [] else visit f root links depth place n p e) ++
      walk f root links depth place dir es
termination_by es => (links, sizeOf es)

def visit (f : FileFilter) (root : FileEntry) (links depth : Nat) (place : List Text) (name : Text)
    (p : Path) : FileEntry → List Path
  | .file _ => f.keep p
  | .directory es =>
    if f.stopsAt depth then [] else walk f root links (depth + 1) (place ++ [name]) p es
  | .link target =>
    if !f.followLinks then []
    else
      match links with
      | 0 => []
      | links + 1 =>
        match h : FileTree.find root true links (if target.isAbsolute then [] else place)
          target.pieces with
        | .ok (.entry _ (.file _) _) => f.keep p
        | .ok (.entry place (.directory es) left) =>
          have := FileTree.find_links h
          if f.stopsAt depth then [] else walk f root left (depth + 1) place p es
        | _ => []
termination_by e => (links, sizeOf e)

end

end FileFilter

namespace FileTree

def discover (t : FileTree) (f : FileFilter) (p : Path) : Except EngineError (List Path) :=
  match t.lookup true p with
  | .ok (.entry place (.directory es) links) => .ok (f.walk t.root links 0 place p es)
  | .ok (.entry _ _ _) => .ok (f.keep p)
  | .ok (.vacant _ _) => .error (.discovery p.display .notFound)
  | .error e => .error (.discovery p.display e)

/-- The files that paths lead to, in order and each once. -/
def discoverAll (t : FileTree) (f : FileFilter) (ps : List Path) :
    Except EngineError (List Path) :=
  (ps.mapM (t.discover f)).map fun found => Path.sorted found.flatten

end FileTree
end MailMarkup
