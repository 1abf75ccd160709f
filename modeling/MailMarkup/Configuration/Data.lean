import MailMarkup.Configuration.Basic

/-!
# Configurations as data
-/
namespace MailMarkup
open Decode

namespace RunOptions

def decode : Decoder RunOptions := record do
  let threads ← field "threads" (optional (natural 64)) none
  let fix ← field "fix" flag false
  return { threads, fix }

def toDatum (o : RunOptions) : Datum := .record [
  ("threads", Datum.ofOption .ofNat o.threads), ("fix", .flag o.fix)]

end RunOptions

namespace OutputOptions

def decode : Decoder OutputOptions := record do
  let format ← field "format" Format.decode .human
  let verbose ← field "verbose" flag false
  let quiet ← field "quiet" flag false
  return { format, verbose, quiet }

def toDatum (o : OutputOptions) : Datum := .record [
  ("format", .text o.format.name), ("verbose", .flag o.verbose), ("quiet", .flag o.quiet)]

end OutputOptions

namespace FileOptions

def decode : Decoder FileOptions := record do
  let d : FileOptions := {}
  let extensions ← field "extensions" (list text) d.extensions
  let included ← field "include_patterns" (list text) d.included
  let excluded ← field "exclude_patterns" (list text) d.excluded
  return { extensions, included, excluded }

def toDatum (o : FileOptions) : Datum := .record [
  ("extensions", .texts o.extensions), ("include_patterns", .texts o.included),
  ("exclude_patterns", .texts o.excluded)]

end FileOptions

namespace Configuration

def decode : Decoder Configuration := record do
  let engine ← field "engine" Settings.decode {}
  let run ← field "validation" RunOptions.decode {}
  let output ← field "output" OutputOptions.decode {}
  let files ← field "files" FileOptions.decode {}
  return { engine, run, output, files }

def toDatum (c : Configuration) : Datum := .record [
  ("engine", c.engine.toDatum), ("validation", c.run.toDatum), ("output", c.output.toDatum),
  ("files", c.files.toDatum)]

end Configuration
end MailMarkup
