import MailMarkup.Error
import MailMarkup.Files.Path

/-!
# File trees

A file system as a value: a tree of directories, files and links, and the directory that relative
paths start from. Looking a path up follows links, at most forty of them. `FileTree.find_links`
says that a look-up never gives links back, which is why a walk through links comes to an end.

Names and paths have a greatest length in bytes. A name is measured where it is looked up, so a
directory that is missing before it is noticed first; a path is measured as a whole.
-/
namespace MailMarkup

inductive FileEntry where
  | file (content : ByteArray)
  | directory (entries : List (Text × FileEntry))
  | link (target : Path)
  deriving Inhabited

namespace FileEntry

/-- The size that is reported for a directory itself. -/
def directorySize : Nat := 4096

def size : FileEntry → Nat
  | .file content => content.size
  | _ => directorySize

def get? (name : Text) : List (Text × FileEntry) → Option FileEntry
  | [] => none
  | (n, e) :: es => if n = name then some e else get? name es

/-- The entry at a place given by names from the top. Links are not followed. -/
def at? : List Text → FileEntry → Option FileEntry
  | [], e => some e
  | n :: ns, .directory es => (get? n es).bind (at? ns)
  | _ :: _, _ => none

def put (name : Text) (e : FileEntry) : List (Text × FileEntry) → List (Text × FileEntry)
  | [] => [(name, e)]
  | (n, old) :: es => if n = name then (n, e) :: es else (n, old) :: put name e es

def set : FileEntry → (place : List Text) → (new : FileEntry) → FileEntry
  | _, [], new => new
  | .directory es, n :: ns, new =>
    match get? n es with
    | some e => .directory (put n (set e ns new) es)
    | none => .directory (put n new es)
  | e, _ :: _, _ => e

mutual

def files (path : Path) : FileEntry → List (Path × ByteArray)
  | .file content => [(path, content)]
  | .directory es => filesIn path es
  | .link _ => []

def filesIn (path : Path) : List (Text × FileEntry) → List (Path × ByteArray)
  | [] => []
  | (n, e) :: es => files (path.child n) e ++ filesIn path es

end
end FileEntry

structure FileTree where
  root : FileEntry := .directory []
  /-- The names of the working directory, from the top. -/
  here : List Text := []
  deriving Inhabited

namespace FileTree

def maxLinks : Nat := 40

def maxNameBytes : Nat := 255

def maxPathBytes : Nat := 4095

def pathFault? (p : Path) : Option FileFault :=
  if p.text.any (· == '\x00') then some .zeroInName
  else if p.text.isEmpty then some .notFound
  else if maxPathBytes < Text.byteSize p.text then some .nameTooLong
  else none

inductive Found where
  /-- An entry, its place, and how many links may still be followed from it. -/
  | entry (place : List Text) (e : FileEntry) (links : Nat)
  /-- Nothing yet, in a directory that is there. -/
  | vacant (place : List Text) (name : Text)

/-- Follows the pieces of a path from a place. A link at the very end is followed only if `follow`
says so. -/
def find (root : FileEntry) (follow : Bool) :
    (links : Nat) → (place : List Text) → (pieces : List Text) → Except FileFault Found
  | links, place, [] =>
    match root.at? place with
    | some e => .ok (.entry place e links)
    | none => .error .notFound
  | links, place, piece :: rest =>
    match root.at? place with
    | some (.directory es) =>
      if piece = [] || piece = ['.'] then find root follow links place rest
      else if piece = ['.', '.'] then find root follow links place.dropLast rest
      else
        match FileEntry.get? piece es with
        | none =>
          if maxNameBytes < Text.byteSize piece then .error .nameTooLong
          else if rest.all (·.isEmpty) then .ok (.vacant place piece)
          else .error .notFound
        | some (.link target) =>
          if rest.isEmpty && !follow then .ok (.entry (place ++ [piece]) (.link target) links)
          else
            match links with
            | 0 => .error .tooManyLinks
            | links + 1 =>
              find root follow links (if target.isAbsolute then [] else place)
                (target.pieces ++ rest)
        | some _ => find root follow links (place ++ [piece]) rest
    | some _ => .error .notDirectory
    | none => .error .notFound
termination_by links _ pieces => (links, pieces.length)

theorem find_links {root : FileEntry} {follow : Bool} {links : Nat} {place pieces : List Text}
    {q : List Text} {e : FileEntry} {n : Nat}
    (h : find root follow links place pieces = .ok (.entry q e n)) : n ≤ links := by
  fun_induction find root follow links place pieces with
  | case1 links place e he => cases h; exact Nat.le_refl _
  | case2 => cases h
  | case3 => rename_i ih; exact ih h
  | case4 => rename_i ih; exact ih h
  | case5 => cases h
  | case6 => cases h
  | case7 => cases h
  | case8 => cases h; exact Nat.le_refl _
  | case9 => cases h
  | case10 => rename_i ih; have := ih h; omega
  | case11 => rename_i ih; exact ih h
  | case12 => cases h
  | case13 => cases h

def start (t : FileTree) (p : Path) : List Text := if p.isAbsolute then [] else t.here

/-- A tree of nothing but the working directory. -/
def at_ (here : List Text) : FileTree where
  root := here.foldr (fun name e => .directory [(name, e)]) (.directory [])
  here := here

def lookup (t : FileTree) (follow : Bool) (p : Path) : Except FileFault Found :=
  match pathFault? p with
  | some f => .error f
  | none => find t.root follow maxLinks (t.start p) p.pieces

/-- The file or directory that a path leads to. -/
def get (t : FileTree) (p : Path) : Except FileFault FileEntry :=
  match t.lookup true p with
  | .ok (.entry _ e _) => .ok e
  | .ok (.vacant _ _) => .error .notFound
  | .error f => .error f

def exists_ (t : FileTree) (p : Path) : Bool :=
  match t.get p with
  | .ok _ => true
  | .error _ => false

def isDirectory (t : FileTree) (p : Path) : Bool :=
  match t.get p with
  | .ok (.directory _) => true
  | _ => false

def read (t : FileTree) (p : Path) : Except FileFault ByteArray :=
  match t.get p with
  | .ok (.file content) => .ok content
  | .ok _ => .error .isDirectory
  | .error f => .error f

/-- Writes a file, which is made if its directory is there. -/
def write (t : FileTree) (p : Path) (content : ByteArray) : Except FileFault FileTree :=
  match t.lookup true p with
  | .ok (.entry place (.file _) _) => .ok { t with root := t.root.set place (.file content) }
  | .ok (.entry _ _ _) => .error .isDirectory
  | .ok (.vacant place name) => .ok { t with root := t.root.set (place ++ [name]) (.file content) }
  | .error f => .error f

def make (t : FileTree) (p : Path) (e : FileEntry) : Except FileFault FileTree :=
  match t.lookup false p with
  | .ok (.entry _ _ _) => .error .exists_
  | .ok (.vacant place name) => .ok { t with root := t.root.set (place ++ [name]) e }
  | .error f => .error f

def makeDirectory (t : FileTree) (p : Path) : Except FileFault FileTree := t.make p (.directory [])

def ensureDirectory (t : FileTree) (p : Path) : Except FileFault Unit × FileTree :=
  match t.makeDirectory p with
  | .ok t => (.ok (), t)
  | .error f => (if t.isDirectory p then .ok () else .error f, t)

/-- Makes a directory and those above it, given by the pieces of its path from the last. Those that
were made stay, also if one below them cannot be made. -/
def ensurePieces (t : FileTree) : List Text → Except FileFault Unit × FileTree
  | [] => (.ok (), t)
  | piece :: above =>
    if (Step.ofPiece? piece).isNone then t.ensurePieces above
    else
      let p := Path.ofPieces (piece :: above).reverse
      match t.ensureDirectory p with
      | (.error .notFound, t) =>
        match t.ensurePieces above with
        | (.ok (), t) => t.ensureDirectory p
        | failed => failed
      | made => made

def ensureDirectories (t : FileTree) (p : Path) : Except FileFault Unit × FileTree :=
  t.ensurePieces p.pieces.reverse

def writeBelow (t : FileTree) (p : Path) (content : ByteArray) : Except FileFault Unit × FileTree :=
  match t.ensurePieces p.above with
  | (.ok (), t) =>
    match t.write p content with
    | .ok t => (.ok (), t)
    | .error f => (.error f, t)
  | failed => failed

def files (t : FileTree) : List (Path × ByteArray) :=
  match t.root.at? t.here with
  | some e => e.files ⟨[]⟩
  | none => []

end FileTree
end MailMarkup
