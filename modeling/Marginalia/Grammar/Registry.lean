import Marginalia.Grammar.Basic
import Marginalia.Path.Basic
import Marginalia.Text.Lower

/-!
# Languages and their extensions

Which grammar a file is read with is decided by its extension.
Extensions are compared in a normal form: one dot, then lower case; a
file without an extension is read as JavaScript. A registry lists the
extensions of its languages in table order, and of two entries for one
extension the later wins.
-/

namespace Marginalia

/-- A language, or a few that share a row of the table. -/
structure Language where
  name : String
  grammar : Grammar
  extensions : List String
  deriving DecidableEq

/-- The extension assumed for a file that has none. -/
def defaultExtension : String := ".js"

/-- The normal form of an extension, given with or without its dots. -/
def normalizeExtension (extension : String) : String :=
  match extension.toList.dropWhile (· == '.') with
  | [] => defaultExtension
  | bare => String.ofList ('.' :: Text.lower bare)

/-- The normal form of the extension of a path. -/
def Path.extension (p : Path) : String :=
  normalizeExtension (String.ofList (p.extension?.getD []))

/-- The grammars of a set of languages by extension. -/
structure Registry where
  /-- Extensions in normal form with their grammars, in table order. -/
  entries : List (String × Grammar)

namespace Registry

/-- The registry of the given languages. -/
def ofLanguages (languages : List Language) : Registry :=
  ⟨languages.flatMap fun l => l.extensions.map fun e => (normalizeExtension e, l.grammar)⟩

/-- The grammar of an extension: that of the last entry with its normal
form. -/
def resolve (r : Registry) (extension : String) : Option Grammar :=
  (r.entries.reverse.find? (·.1 = normalizeExtension extension)).map (·.2)

/-- Whether a grammar is known for an extension. -/
def supports (r : Registry) (extension : String) : Bool :=
  (r.resolve extension).isSome

end Registry

/-- The languages known from the start. -/
def Language.builtin : List Language := [
  ⟨"C, C++, C#", .cStyle, ["c", "h", "cc", "cpp", "hpp", "cs"]⟩,
  ⟨"CoffeeScript", .coffee, ["coffee"]⟩,
  ⟨"CSS", .css, ["css"]⟩,
  ⟨"Go", .cStyle, ["go"]⟩,
  ⟨"Groovy", .cStyle, ["groovy"]⟩,
  ⟨"Handlebars", .handlebars, ["hbs", "handlebars"]⟩,
  ⟨"Haskell, Elm, Purescript", .haskell, ["hs", "elm", "purs"]⟩,
  ⟨"HTML, XML", .markup, ["html", "htm", "xml", "svg"]⟩,
  ⟨"Jade", .jade, ["jade", "pug"]⟩,
  ⟨"Java", .cStyle, ["java"]⟩,
  ⟨"JavaScript", .cStyle, ["js", "jsx", "mjs", "cjs", "es6"]⟩,
  ⟨"Kotlin", .cStyle, ["kt"]⟩,
  ⟨"Less, Sass, Stylus", .cStyle, ["less", "scss", "styl"]⟩,
  ⟨"Lua", .lua, ["lua"]⟩,
  ⟨"Make, CMake", .hash, ["mk", "cmake"]⟩,
  ⟨"Markdown", .markup, ["md", "markdown"]⟩,
  ⟨"Nix", .hash, ["nix"]⟩,
  ⟨"Perl", .hash, ["pl", "pm"]⟩,
  ⟨"PHP", .cStyle, ["php"]⟩,
  ⟨"Python", .python, ["py"]⟩,
  ⟨"R", .hash, ["r"]⟩,
  ⟨"Ruby", .ruby, ["rb"]⟩,
  ⟨"Rust", .rust, ["rs"]⟩,
  ⟨"Scala", .cStyle, ["scala"]⟩,
  ⟨"Shell", .hash, ["sh", "bash", "zsh", "dockerfile"]⟩,
  ⟨"Sql", .doubleDash, ["sql"]⟩,
  ⟨"Swift", .cStyle, ["swift"]⟩,
  ⟨"Terraform", .hash, ["tf"]⟩,
  ⟨"TOML", .hash, ["toml"]⟩,
  ⟨"Typescript", .cStyle, ["ts", "tsx"]⟩,
  ⟨"Vue component", .cStyle, ["vue"]⟩,
  ⟨"YAML", .hash, ["yaml", "yml"]⟩]

/-- The registry of the languages known from the start. -/
def Registry.builtin : Registry :=
  ofLanguages Language.builtin

end Marginalia
