import Flowchart.Path

set_option autoImplicit false

/-!
# Script languages

The grammars of scripts, chosen by the extension of a file name in either case.

## Main definitions

* `Flowchart.Language`: the grammars.
* `Flowchart.Language.ofPath?`: the grammar for a file, if it is supported.
-/

namespace Flowchart

/-- A grammar of scripts. -/
inductive Language where
  | typescript
  | tsx
  | javascript
  deriving DecidableEq, Repr

namespace Language

/-- The name of a grammar. -/
def name : Language → String
  | .typescript => "typescript"
  | .tsx => "tsx"
  | .javascript => "javascript"

/-- The grammar for a file name extension in lower case. Markup in either language is read by one
grammar. -/
def ofExtension? (extension : String) : Option Language :=
  if extension ∈ [".ts", ".mts", ".cts"] then some .typescript
  else if extension ∈ [".tsx", ".jsx"] then some .tsx
  else if extension ∈ [".js", ".mjs", ".cjs"] then some .javascript
  else none

/-- The grammar for a file, by the extension of its name. No letter outside ASCII has one of the
letters of the extensions as its lower case, so ASCII case is enough. -/
def ofPath? (path : Path) : Option Language :=
  ofExtension? (path.extension.map Char.toLower)

end Language

end Flowchart
