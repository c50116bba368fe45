import FactStream.Language.CSharp
import FactStream.Language.Php
import FactStream.Language.TypeScript
import FactStream.Path
import FactStream.Text.Ascii
import FactStream.Text.Case

/-!
# The languages by name and by extension

A `Registry` finds a language by one of its names or by a file extension. The extensions of a
language can be replaced by others.
-/

namespace FactStream

/-- Whether a language has an extension by itself, whatever a registry says. -/
def Language.hasOwnExtension (language : Language) (extension : String) : Bool :=
  language.extensions.any fun e => Text.equalIgnoringAsciiCase e extension

/-- The languages, and which extensions belong to them. -/
structure Registry where
  /-- The languages in order. -/
  languages : List Language
  /-- The language of each extension. -/
  owners : Dictionary Language
  /-- The extensions given instead of those a language has by itself. -/
  replaced : Dictionary (List String) := .empty

namespace Registry

/-- The registry of some languages with their own extensions. -/
def ofLanguages (languages : List Language) : Registry where
  languages
  owners := .ofList (languages.flatMap fun l => l.extensions.map fun e => (Text.lower e, l))

/-- All languages. -/
def standard : Registry := ofLanguages [.cSharp, .php, .typeScript]

/-- The language with exactly this name. -/
def named? (r : Registry) (name : String) : Option Language :=
  r.languages.find? fun l => l.nameSpace == name || l.aliases.contains name

/-- The language with this name in any case. -/
def find? (r : Registry) (name : String) : Option Language :=
  r.named? (Text.lower name)

/-- The language of an extension, in any case. -/
def forExtension? (r : Registry) (extension : String) : Option Language :=
  r.owners.get? (Text.lower extension)

/-- The language of a file, by the extension of its path. -/
def forPath? (r : Registry) (path : String) : Option Language :=
  (Path.extension? path).bind r.forExtension?

/-- The extensions of a language. A language under an alias has its own extensions. -/
def extensionsOf (r : Registry) (name : String) : List String :=
  match r.replaced.get? name with
  | some extensions => extensions
  | none => ((r.named? name).map (·.extensions)).getD []

/-- Gives a language other extensions, which are then no longer those of any other language. A name
that is not known changes nothing. -/
def replaceExtensions (r : Registry) (name : String) (extensions : List String) : Registry :=
  match r.named? name with
  | none => r
  | some language =>
    let extensions := extensions.map fun e =>
      Text.lower (String.ofList (e.toList.dropWhile (· = '.')))
    let others := r.owners.filter fun _ l => l.nameSpace != language.nameSpace
    { r with
      owners := extensions.foldl (fun owners e => owners.insert e language) others
      replaced := r.replaced.insert language.nameSpace extensions }

/-- All languages, with other extensions for some, in the order of the names. -/
def withExtensions (extensions : Dictionary (List String)) : Registry :=
  extensions.entries.foldl (fun r e => r.replaceExtensions e.1 e.2) standard

end Registry

end FactStream
