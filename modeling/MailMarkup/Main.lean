import MailMarkup.Program

/-!
# Entry point

Takes a picture of the files that a command line is about, lets the program work on it, and writes
the files that came out changed. Links inside directories are left out of the picture, since the
program does not follow them.
-/
namespace MailMarkup.Main

/-- The file or directory at a path, with all that is in it. -/
partial def entry? (name : String) : IO (Option FileEntry) := do
  let path := (← IO.currentDir) / name
  try
    match (← path.metadata).type with
    | .file => return some (.file (← IO.FS.readBinFile path))
    | .dir =>
      let mut entries : List (Text × FileEntry) := []
      for found in ← path.readDir do
        if (← found.path.symlinkMetadata).type matches .symlink then continue
        if let some e ← entry? found.path.toString then
          entries := (found.fileName.toList, e) :: entries
      return some (.directory entries)
    | _ => return none
  catch _ => return none

def addPath (t : FileTree) (p : Path) : IO FileTree := do
  let mut t := t
  let mut place := t.start p
  let mut sofar := if p.isAbsolute then "/" else "."
  for piece in p.pieces do
    if piece = [] || piece = ['.'] then continue
    sofar := sofar ++ "/" ++ String.ofList piece
    place := if piece = ['.', '.'] then place.dropLast else place ++ [piece]
    if (t.root.at? place).isNone && (← ((← IO.currentDir) / sofar).isDir) then
      t := { t with root := t.root.set place (.directory []) }
  match ← entry? p.display with
  | some e => return { t with root := t.root.set place e }
  | none => return t

def picture (paths : List Path) : IO FileTree := do
  let here := (Path.ofString (← IO.currentDir).toString).steps.filterMap fun
    | .name n => some n
    | _ => none
  paths.foldlM addPath (FileTree.at_ here)

def store (files : FileTree) (p : Path) : IO Unit := do
  if let .ok content := files.read p then
    if let some dir := p.parent? then
      if !dir.text.isEmpty then IO.FS.createDirAll dir.display
    IO.FS.writeBinFile p.display content

def environment : IO Environment := do
  let mut env : Environment := []
  for name in Environment.names do
    if let some value ← IO.getEnv name then env := env ++ [(name, value)]
  return env

/-- Works on the files of a job, timing each. -/
def work (j : Program.Job) (files : FileTree) : IO (List FileResult) := do
  let mut w : Batch.World := { engine := j.engine, files }
  let mut results : List FileResult := []
  for p in j.files do
    let start ← IO.monoNanosNow
    let (r, next) := Batch.process j.options p w
    w := next
    let r := Batch.result p r
    if let some target := r.writtenTo then store w.files target
    let stop ← IO.monoNanosNow
    results := { r with duration := ⟨stop - start⟩ } :: results
  return results.reverse

def run (words : List String) : IO Program.Ending := do
  match CommandLine.read (words.map String.toList) with
  | .error e => return .usage e
  | .ok a =>
    let env ← environment
    let files ← picture (Program.wanted env a)
    match Program.prepare env files a with
    | .error f => return .failed f
    | .ok j =>
      let results ← work j files
      let (output, success) := j.conclude (← (← IO.getStdout).isTty) Duration.text results
      return .finished output success

end MailMarkup.Main

open MailMarkup in
def main (words : List String) : IO UInt32 := do
  let ending ← Main.run words
  match ending with
  | .usage .help => IO.print Program.usage
  | .usage .version => IO.print Program.version
  | .usage e => IO.eprint ("error: " ++ e.message ++ "\n\n" ++ Program.usage)
  | .failed f => IO.eprint f.report
  | .finished output _ => IO.print output
  return UInt32.ofNat ending.code
