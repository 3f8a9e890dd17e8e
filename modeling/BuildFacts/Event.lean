import BuildFacts.Error

/-!
# Events

An event is something worth a line in a log.  Operations do not log; they
answer with the events that belong to them.

`Traced` is such an answer: the events up to the end of the operation, and its
result.
-/

namespace BuildFacts

/-- Something worth a line in a log. -/
inductive Event where
  /-- Properties of a file that no target compiles. -/
  | unusedOverride (file : String)
  | unresolvedReference (reference : String)
  | loaded (targets sources : Nat) (validation : Validation)
  | reading (metadata schema : Path)
  | builtDatabase (entries : Nat) (directory : Path)
  | resolved (target : String) (file : Path) (language : Language) (property : Property)
      (base appended : Nat)

/-- The line of an event. -/
def Event.render : Event → String
  | .unusedOverride file =>
    "WARN buildmeta::document: source properties recorded for a file no target compiles file=" ++
      file
  | .unresolvedReference reference =>
    "WARN buildmeta::schema: ignoring unresolvable schema reference reference=" ++ reference
  | .loaded targets sources validation =>
    "DEBUG buildmeta::store: loaded build metadata targets=" ++ Nat.repr targets ++
      " sources=" ++ Nat.repr sources ++ " validation=" ++ validation.display
  | .reading metadata schema =>
    "DEBUG buildmeta::store: reading build metadata metadata=" ++ metadata.display ++
      " schema=" ++ schema.display
  | .builtDatabase entries directory =>
    "DEBUG buildmeta::compile_commands: built compile database from metadata entries=" ++
      Nat.repr entries ++ " directory=" ++ directory.display
  | .resolved target file language property base appended =>
    "TRACE buildmeta::resolve: resolved compile property target_name=" ++ target ++
      " file=" ++ file.display ++ " language=" ++ language.display ++
      " property=" ++ property.key ++ " base=" ++ Nat.repr base ++
      " appended=" ++ Nat.repr appended

/-- The result of an operation, and the events that belong to it. -/
structure Traced (α : Type) where
  events : List Event
  result : Except Error α

namespace Traced

variable {α β : Type}

/-- A result without events. -/
def ofExcept (result : Except Error α) : Traced α := ⟨[], result⟩

/-- A single event. -/
def emit (event : Event) : Traced Unit := ⟨[event], .ok ()⟩

/-- An operation, and then one that uses its result. -/
def andThen (first : Traced α) (next : α → Traced β) : Traced β :=
  match first.result with
  | .ok a => ⟨first.events ++ (next a).events, (next a).result⟩
  | .error error => ⟨first.events, .error error⟩

instance : Monad Traced where
  pure a := ofExcept (.ok a)
  bind := andThen

/-! ## Results without their events -/

@[simp] theorem result_pure (a : α) : (pure a : Traced α).result = .ok a := rfl

@[simp] theorem result_ofExcept (result : Except Error α) : (ofExcept result).result = result :=
  rfl

@[simp] theorem result_emit (event : Event) : (emit event).result = .ok () := rfl

@[simp] theorem result_bind (first : Traced α) (next : α → Traced β) :
    (first >>= next).result = first.result >>= fun a => (next a).result := by
  show (andThen first next).result = _
  unfold andThen
  cases first.result <;> rfl

end Traced

end BuildFacts
