import TypeScribe.Proofs.Files
import TypeScribe.Settings.File

/-!
# Settings in files

When a settings file can be read, and what reading it gives.
-/

namespace TypeScribe

section Open

variable (path : String) (directory : Directory)

end Open

section Load

variable {directory : Directory} {path : String} {config : Config}

end Load

/-! ## The template -/

theorem parse?_eq_readStatements? {document : String} {text : List Char}
    (h : document.toList = text) (hmark : text.head? ≠ some '\ufeff') :
    Toml.parse? document = Toml.readStatements? (text.length + 1) [] [] text := by
  rw [Toml.parse?, h]
  split
  · simp at hmark
  · rfl

theorem Config.parse_eq_validate {source : Settings.Source} {config : Config}
    (h : (Toml.parse? source.content).bind Config.ofTable? = some config) :
    Config.parse source = Settings.validate source config := by
  rw [Config.parse, h]

section Create

variable {before after : Directory} {path : String}

end Create

end TypeScribe
