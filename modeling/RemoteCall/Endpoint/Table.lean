import RemoteCall.Service.Method
import RemoteCall.Text
import RemoteCall.Thread

/-!
Interface tables: the methods that one implementation offers for one interface.

A table finds its methods by the hash of their signature, and confirms what it finds by
name and types; so two signatures with one hash can displace each other but are never
taken for each other.
-/

namespace RemoteCall

inductive Ending (β : Type) where
  | returned (b : β)
  | raised (f : RemoteFailure)
  /-- It broke down, with a message if it left one. -/
  | panicked (message : Option String)
  deriving DecidableEq, Repr, Inhabited

/-- The implementation of a method, on threads with memory `σ`. -/
abbrev Implementation (σ α β : Type) := α → Thread σ → Ending β × Thread σ

structure MethodEntry (σ : Type) where
  name : String
  types : List ValueType
  invoke : Implementation σ (List Value) Value

namespace MethodEntry

variable {σ α β : Type}

/-- Arguments, or a result, that could not be converted. -/
def unconverted (e : Fault) : RemoteFailure :=
  .framework RemoteFailure.invalidArguments e.message

/-- The result of an implementation, as it travels. -/
def conclude (m : Method α β) : Ending β → Ending Value
  | .raised f => .raised f
  | .panicked message => .panicked message
  | .returned b =>
    match m.encodeResult b with
    | .ok v => .returned v
    | .error e => .raised (unconverted e)

/-- Binds a method to its implementation, which runs only if the arguments convert. -/
def ofMethod (m : Method α β) (run : Implementation σ α β) : MethodEntry σ where
  name := m.name
  types := m.types
  invoke vs t :=
    match m.decodeArguments vs with
    | .error e => (.raised (unconverted e), t)
    | .ok a => ((conclude m (run a t).1), (run a t).2)

end MethodEntry

structure InterfaceTable (σ : Type) where
  id : String
  hash : String → List ValueType → UInt64
  entries : List (UInt64 × MethodEntry σ)
  distinct : entries.Pairwise fun p q => p.1 ≠ q.1

namespace InterfaceTable

variable {σ α β : Type}

def withHash (hash : String → List ValueType → UInt64) (id : String) : InterfaceTable σ :=
  ⟨id, hash, [], .nil⟩

/-- A table without methods.  It tags an implementation, and no call can reach it. -/
def marker (id : String) : InterfaceTable σ := withHash Signature.id id

def isMarker (t : InterfaceTable σ) : Bool := t.entries.isEmpty

def size (t : InterfaceTable σ) : Nat := t.entries.length

def methods (t : InterfaceTable σ) : List (MethodEntry σ) := t.entries.map Prod.snd

def entryAt? (t : InterfaceTable σ) (key : UInt64) : Option (MethodEntry σ) :=
  (t.entries.find? fun p => p.1 == key).map Prod.snd

def find? (t : InterfaceTable σ) (name : String) (types : List ValueType) :
    Option (MethodEntry σ) :=
  (t.entryAt? (t.hash name types)).filter fun e => e.name == name && e.types == types

/-- Adds an entry in place of the one with the same hash, if there is one. -/
def insert (t : InterfaceTable σ) (e : MethodEntry σ) : InterfaceTable σ :=
  let key := t.hash e.name e.types
  { t with
    entries := (key, e) :: t.entries.filter fun p => p.1 != key
    distinct := by
      refine .cons (fun p hp => ?_) (t.distinct.filter _)
      simp only [List.mem_filter, bne_iff_ne, ne_eq] at hp
      exact fun h => hp.2 h.symm }

def method (t : InterfaceTable σ) (m : Method α β) (run : Implementation σ α β) :
    InterfaceTable σ :=
  t.insert (.ofMethod m run)

/-- A table as diagnostics show it, with the names of its methods in order. -/
def describe (t : InterfaceTable σ) : String :=
  let names := (t.methods.map MethodEntry.name).mergeSort
  "InterfaceTable \x7b interface_id: " ++ Text.quote t.id
    ++ ", methods: [" ++ ", ".intercalate (names.map Text.quote) ++ "] \x7d"

@[simp] theorem hash_insert (t : InterfaceTable σ) (e : MethodEntry σ) :
    (t.insert e).hash = t.hash := rfl

@[simp] theorem id_insert (t : InterfaceTable σ) (e : MethodEntry σ) :
    (t.insert e).id = t.id := rfl

theorem entryAt?_insert (t : InterfaceTable σ) (e : MethodEntry σ) (key : UInt64) :
    (t.insert e).entryAt? key = if t.hash e.name e.types = key then some e else t.entryAt? key := by
  unfold entryAt? insert
  by_cases h : t.hash e.name e.types = key
  · simp [h]
  · have hk : (t.hash e.name e.types == key) = false := by simpa using h
    rw [if_neg h, List.find?_cons_of_neg (by simpa using h), List.find?_filter]
    congr 2
    funext p
    by_cases hp : p.1 = key
    · simp [hp, Ne.symm h]
    · simp [hp]

theorem name_types_of_find? {t : InterfaceTable σ} {name : String} {types : List ValueType}
    {e : MethodEntry σ} (h : t.find? name types = some e) : e.name = name ∧ e.types = types := by
  simpa using (Option.filter_eq_some_iff.1 h).2

end InterfaceTable

end RemoteCall
