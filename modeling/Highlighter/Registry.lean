import Highlighter.Compiled.Grammar

/-!
# Registries

A registry knows grammars by their names and other names for them.  Letter case does
not matter.
-/
namespace Highlighter

open Compiled (CompiledGrammar)
open Grammar (Definition)

/-- A registered grammar.  It is compiled when it is first needed. -/
structure RegistryEntry where
  definition : Definition
  compiled : Thunk (Except CompileError CompiledGrammar)
  compiled_eq : compiled.get = CompiledGrammar.compile definition

def RegistryEntry.ofDefinition (definition : Definition) : RegistryEntry where
  definition
  compiled := .mk fun _ => CompiledGrammar.compile definition
  compiled_eq := rfl

/-- Grammars by their names, and names by other names.  All names are in lower case. -/
structure Registry where
  grammars : Dictionary String RegistryEntry := .empty
  aliases : Dictionary String String := .empty

namespace Registry

/-- Lets other names stand for a name, which need not be that of a grammar. -/
def registerAliases (registry : Registry) (aliases : List String) (name : String) : Registry :=
  let name := Unicode.lowercase name
  { registry with
    aliases := aliases.foldl (fun known other => known.insert (Unicode.lowercase other) name)
      registry.aliases }

/-- Registers a grammar under a name, other names, and its own other names.  It takes
the place of a grammar with that name. -/
def register (registry : Registry) (name : String) (definition : Definition)
    (aliases : List String) : Registry :=
  let entered :=
    { registry with
      grammars := registry.grammars.insert (Unicode.lowercase name) (.ofDefinition definition) }
  entered.registerAliases (aliases ++ definition.aliases) name

def unregister (registry : Registry) (name : String) : Registry :=
  let name := Unicode.lowercase name
  { grammars := registry.grammars.erase name
    aliases := registry.aliases.filter fun _ target => target != name }

def entry? (registry : Registry) (name : String) : Option (String × RegistryEntry) :=
  let key := Unicode.lowercase name
  match registry.grammars.get? key with
  | some entry => some (key, entry)
  | none => do
      let target ← registry.aliases.get? key
      let entry ← registry.grammars.get? target
      return (target, entry)

def resolve? (registry : Registry) (name : String) : Option String :=
  (registry.entry? name).map Prod.fst

def contains (registry : Registry) (name : String) : Bool :=
  (registry.resolve? name).isSome

def get? (registry : Registry) (name : String) : Option Definition :=
  (registry.entry? name).map fun entry => entry.2.definition

def compiled? (registry : Registry) (name : String) :
    Except CompileError (Option CompiledGrammar) :=
  match registry.entry? name with
  | none => .ok none
  | some (_, entry) => entry.compiled.get.map some

def names (registry : Registry) : List String :=
  registry.grammars.keys

end Registry
end Highlighter
