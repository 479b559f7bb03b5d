import CommandLine.Manifest.Basic
import CommandLine.Toml.DateTable
import CommandLine.Toml.Document
import CommandLine.Toml.Record

/-!
# Manifests from documents

A manifest is written as a TOML document. Fields that are not known are passed over; a field of
the wrong form spoils the document.
-/

namespace CommandLine

open Toml (Record)

/-- The limits in a record; fields left out keep their defaults. -/
def Config.ofRecord? (r : Record) : Option Config := do
  let base : Config := {}
  return {
    maxFlags := ← r.defaulted 0 "max_flags" (·.size?) base.maxFlags
    maxSubcommands := ← r.defaulted 1 "max_subcommands" (·.size?) base.maxSubcommands
    maxPositionals := ← r.defaulted 2 "max_main_args" (·.size?) base.maxPositionals
    hashBuckets := ← r.defaulted 3 "hash_buckets" (·.size?) base.hashBuckets
    allowEmptyArguments :=
      ← r.defaulted 4 "allow_empty_arguments" (·.boolean?) base.allowEmptyArguments }

/-- The limits in a document. -/
def Config.ofText? (text : String) : Option Config :=
  (Toml.Document.read? text).bind fun entries => ofRecord? (.named entries)

/-- A positional argument in a record. -/
def PositionalSpec.ofRecord? (r : Record) : Option PositionalSpec := do
  return {
    name := ← r.required 0 "name" (·.string?)
    description := ← r.defaulted 1 "description" (·.string?) "" }

/-- A kind by its name. -/
def Kind.ofValue? (v : Toml.Value) : Option Kind :=
  v.caseName?.bind Kind.ofName?

/-- A flag in a record. -/
def FlagSpec.ofRecord? (r : Record) : Option FlagSpec := do
  return {
    long := ← r.optional 0 "long" (·.string?)
    short := ← r.optional 1 "short" (·.char?)
    kind := ← r.required 2 "kind" Kind.ofValue?
    list := ← r.defaulted 3 "list" (·.boolean?) false
    default := ← r.optional 4 "default" (·.withDates?)
    description := ← r.defaulted 5 "description" (·.string?) "" }

/-- A positional argument in a value. -/
def PositionalSpec.ofValue? (v : Toml.Value) : Option PositionalSpec :=
  (Record.ofValue? v).bind ofRecord?

/-- Flags in a value. -/
def FlagSpec.listOfValue? (v : Toml.Value) : Option (List FlagSpec) :=
  v.listOf? fun item => (Record.ofValue? item).bind ofRecord?

/-- A subcommand in a record. -/
def SubcommandSpec.ofRecord? (r : Record) : Option SubcommandSpec := do
  return {
    name := ← r.required 0 "name" (·.string?)
    description := ← r.defaulted 1 "description" (·.string?) ""
    positional := ← r.optional 2 "main_arg" PositionalSpec.ofValue?
    flags := ← r.defaulted 3 "flags" FlagSpec.listOfValue? [] }

/-- Subcommands in a value. -/
def SubcommandSpec.listOfValue? (v : Toml.Value) : Option (List SubcommandSpec) :=
  v.listOf? fun item => (Record.ofValue? item).bind ofRecord?

namespace Manifest

/-- A manifest in a record. -/
def ofRecord? (r : Record) : Option Manifest := do
  return {
    name := ← r.defaulted 0 "name" (·.string?) ""
    description := ← r.defaulted 1 "description" (·.string?) ""
    config := ← r.defaulted 2 "config" (fun v => (Record.ofValue? v).bind Config.ofRecord?) {}
    positional := ← r.optional 3 "main_arg" PositionalSpec.ofValue?
    flags := ← r.defaulted 4 "flags" FlagSpec.listOfValue? []
    subcommands := ← r.defaulted 5 "subcommands" SubcommandSpec.listOfValue? [] }

/-- Decodes a text, without a look at what its flags must have. -/
def decode? (text : String) : Option Manifest :=
  (Toml.Document.read? text).bind fun entries => ofRecord? (.named entries)

/-- The manifest in a text. -/
def ofText (text : String) : Except Unreadable Manifest := accept (decode? text)

end Manifest

end CommandLine
