import FileChecks.NamedChecks
import FileChecks.Proofs.Compile.Coherence
import FileChecks.Proofs.Text.Utf8
import FileChecks.Proofs.Yaml.Numbers

/-!
Why a configuration file cannot be loaded. What the file system and the reader of documents report is
told as a failure of the configuration, but three causes are not.
-/
namespace FileChecks

/-- Failures to load a file that are not: a path that cannot be looked for, bytes that are not those
of a text, and a whole number without digits or with too many. -/
inductive Escaping (files : Files) (file : String) : Failure → Prop
  | nulInPath (path : '\x00' ∈ file.toList) : Escaping files file .nulInPath
  | encoding (path : '\x00' ∉ file.toList) {bytes : List UInt8} {fault : Text.EncodingFault}
      (find : files.find file = .file bytes) (noText : ∀ cs, bytes ≠ Text.encodeUtf8 cs)
      (decode : Text.decodeUtf8 bytes = .error fault) : Escaping files file (.encoding fault)
  | number (path : '\x00' ∉ file.toList) {cs text : List Char} {root : Yaml.Node}
      {fault : Yaml.ScalarFault} (find : files.find file = .file (Text.encodeUtf8 cs))
      (document : Yaml.document? (Text.unifyLineEnds cs) = some root) (mem : text ∈ root.ints)
      (number : Yaml.NumberFault text fault)
      (read : Yaml.read (Text.unifyLineEnds cs) = .error fault) :
      Escaping files file (fault.failure file)

section loadSettings
variable {files : Files} {file : String} {f : Failure} {entries : Entries}

end loadSettings

theorem Escaping.className {files : Files} {file : String} {f : Failure}
    (h : Escaping files file f) :
    f.className = "ValueError" ∨ f.className = "UnicodeDecodeError" := by
  cases h with
  | nulInPath => exact .inl rfl
  | encoding => exact .inr rfl
  | number _ _ _ _ hnumber _ =>
    left
    cases hnumber <;> rfl

namespace Config
variable {files : Files} {file : String} {f : Failure}

end Config

end FileChecks
