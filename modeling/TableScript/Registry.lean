import TableScript.Step.Kind

/-!
# Registries

The kinds of steps that a pipeline knows, in the order in which they were registered. No two of them
have one name.
-/

namespace TableScript

open Step

/-- The kinds of steps that are known, in order. -/
structure Registry where
  kinds : List StepKind

/-- A kind of that name is there already. -/
structure DuplicateStep where
  typeName : String

/-- The text of the error. -/
def DuplicateStep.message (e : DuplicateStep) : String :=
  "step type already registered: " ++ e.typeName

namespace Registry

/-- No kinds. -/
def empty : Registry := ⟨[]⟩

/-- The kind of that name. -/
def find? (registry : Registry) (typeName : String) : Option StepKind :=
  registry.kinds.find? fun kind => kind.typeName = typeName

/-- There is a kind of that name. -/
def has (registry : Registry) (typeName : String) : Bool := (registry.find? typeName).isSome

/-- The names of the kinds in order. -/
def typeNames (registry : Registry) : List String := registry.kinds.map StepKind.typeName

/-- Register a kind. -/
def register (registry : Registry) (kind : StepKind) : Except DuplicateStep Registry :=
  if registry.has kind.typeName then .error ⟨kind.typeName⟩ else .ok ⟨registry.kinds ++ [kind]⟩

/-- Register kinds up to the first that is there already: what comes of it, and what is registered
then. -/
def registerEach (registry : Registry) : List StepKind → Option DuplicateStep × Registry
  | [] => (none, registry)
  | kind :: rest =>
    match registry.register kind with
    | .ok registry => registerEach registry rest
    | .error e => (some e, registry)

/-- All kinds there are. -/
def allKinds : List StepKind :=
  [.aiTransformation, .simpleImport, .addColumn, .renameColumn, .deleteColumn, .dataframeDuplicate]

/-- The registry with all kinds there are. -/
def standard : Registry := (empty.registerEach allKinds).2

/-- The registry as messages show it. -/
def explicitText (registry : Registry) : String :=
  "Registry \x7b step_types: [" ++ ", ".intercalate (registry.typeNames.map Text.quoted) ++ "] \x7d"

end Registry

end TableScript
