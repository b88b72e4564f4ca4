import RemoteCall.Proofs.Endpoint.Classification
import RemoteCall.Proofs.Service.TypedCalls

/-!
The answers of the example services.

Each of the declared methods is bound to its own implementation, and a call leads there just
if it names the interface, the method and the types: the hash by which tables find their
methods tells the few declared signatures apart, and whatever other signature shares a hash
with one of them is turned away by its name or its types.  Arguments convert only if they have
the declared types.  What is left is one list of answers (`Answer`).
-/

namespace RemoteCall

/-! ## Conversions that check types -/

namespace Value

variable {vs : List Value}

theorem eq_str_of_types (h : vs.map type = [.str]) : ∃ s, vs = [.str s] := by
  obtain ⟨v, rfl, hv⟩ := List.map_eq_singleton_iff.mp h
  cases v <;> first | exact ⟨_, rfl⟩ | cases hv

theorem eq_bytes_of_types (h : vs.map type = [.bytes]) : ∃ bs, vs = [.bytes bs] := by
  obtain ⟨v, rfl, hv⟩ := List.map_eq_singleton_iff.mp h
  cases v <;> first | exact ⟨_, rfl⟩ | cases hv

theorem eq_int_of_types (h : vs.map type = [.int]) : ∃ n, vs = [.int n] := by
  obtain ⟨v, rfl, hv⟩ := List.map_eq_singleton_iff.mp h
  cases v <;> first | exact ⟨_, rfl⟩ | cases hv

theorem eq_int_int_of_types (h : vs.map type = [.int, .int]) : ∃ m n, vs = [.int m, .int n] := by
  obtain ⟨v, ws, rfl, hv, hws⟩ := List.map_eq_cons_iff.mp h
  obtain ⟨n, rfl⟩ := eq_int_of_types hws
  cases v <;> first | exact ⟨_, n, rfl⟩ | cases hv

end Value

/-- Only values of one type convert. -/
def Valued.Typed (α : Type) [Valued α] (type : ValueType) : Prop :=
  ∀ (v : Value) (a : α), Valued.ofValue v = .ok a → v.type = type

namespace Valued

theorem typed_string : Typed String .str := by
  intro v a h
  cases v <;> first | rfl | cases h

theorem typed_bytes : Typed Bytes .bytes := by
  intro v a h
  cases v <;> first | rfl | cases h

theorem typed_int64 : Typed Int64 .int := by
  intro v a h
  cases v <;> first | rfl | cases h

theorem typed_int32 : Typed Int32 .int := by
  intro v a h
  cases v <;> first | rfl | cases h

variable {α : Type} [Valued α] {type : ValueType} {v : Value} {a : α}

theorem Typed.of_decode (hα : Typed α type) (h : Arguments.decode v = .ok a) : v.type = type := by
  rw [Arguments.decode] at h
  split at h
  · next b hb =>
    obtain rfl := Except.ok.inj h
    exact hα v b hb
  · cases h

end Valued

theorem Arguments.decode2_pair {α β : Type} [Valued α] [Valued β] (v w : Value) :
    (decode2 [v, w] : Except Fault (α × β)) =
      match decode v with
      | .error fault => .error fault
      | .ok a =>
        match decode w with
        | .error fault => .error fault
        | .ok b => .ok (a, b) := by
  show (decode v).bind (fun a => (decode w).bind fun b => .ok (a, b)) = _
  rcases decode v with fault | a
  · rfl
  · rcases decode w with fault | b <;> rfl

theorem Arguments.decode_of_decode2 {α β : Type} [Valued α] [Valued β] {v w : Value} {p : α × β}
    (h : decode2 [v, w] = .ok p) : decode v = .ok p.1 ∧ decode w = .ok p.2 := by
  rw [decode2_pair] at h
  split at h
  · cases h
  · split at h
    · cases h
    · cases h
      exact ⟨‹_›, ‹_›⟩

namespace Method

variable {α β γ : Type} [Valued α] [Valued β] [Valued γ] {type first second : ValueType}

/-- Arguments that convert have the declared types. -/
def Strict {α β : Type} (m : Method α β) : Prop :=
  ∀ vs a, m.decodeArguments vs = .ok a → vs.map Value.type = m.types

theorem strict_nullary (interface name : String) (declared : List String) :
    (nullary interface name declared : Method Unit β).Strict := by
  intro vs a h
  match vs with
  | [] => rfl
  | v :: vs => cases h

theorem strict_unary (hα : Valued.Typed α type) (interface name : String)
    (declared : List String) : (unary interface name type declared : Method α β).Strict := by
  intro vs a h
  match vs with
  | [] => cases h
  | [v] => exact congrArg (fun t => [t]) (hα.of_decode h)
  | v :: w :: vs => cases h

theorem strict_binary (hα : Valued.Typed α first) (hγ : Valued.Typed γ second)
    (interface name : String) (declared : List String) :
    (binary interface name first second declared : Method (α × γ) β).Strict := by
  intro vs p h
  match vs with
  | [] => cases h
  | [v] => cases h
  | [v, w] =>
    obtain ⟨ha, hb⟩ := Arguments.decode_of_decode2 h
    show [v.type, w.type] = _
    rw [hα.of_decode ha, hγ.of_decode hb]
    rfl
  | v :: w :: x :: vs => cases h

end Method

namespace Example

variable {σ : Type}

/-! ## What is offered -/

def greetingOffer : Offer σ :=
  ⟨Signature.id, greeting, [⟨greet, answering fun _ => .ok "Hello world!"⟩]⟩

def echoOffer : Offer σ :=
  ⟨Signature.id, echo, [⟨echoText, answering .ok⟩, ⟨echoBytes, answering .ok⟩]⟩

def someTestMethodsOffer : Offer σ where
  hash := Signature.id
  interface := someTestMethods
  bindings :=
    [⟨add, answering fun p => checkedAdd p.1 p.2⟩, ⟨log, answering fun _ => .ok ()⟩,
      ⟨sleep, answering checkedSleep⟩,
      ⟨throwUndeclared, answering fun _ =>
        .error (.raised "IllegalStateException" testExceptionMessage)⟩]

def throwExceptionOffer : Offer σ where
  hash := Signature.id
  interface := throwException
  bindings :=
    [⟨throwDeclared, answering fun _ => .error (.raised ioException testExceptionMessage)⟩]

def offers : List (Offer σ) :=
  [greetingOffer, echoOffer, someTestMethodsOffer, throwExceptionOffer]

def interfaces : List String := [greeting, echo, someTestMethods, throwException]

/-- The declared signatures, each with its interface. -/
def declared : List (String × String × List ValueType) :=
  [(greeting, "greet", []),
   (echo, "echo", [.str]), (echo, "echo", [.bytes]),
   (someTestMethods, "add", [.int, .int]), (someTestMethods, "log", [.str]),
   (someTestMethods, "sleep", [.int]), (someTestMethods, "throw_exception", []),
   (throwException, "throw_exception", [.str])]

theorem mem_declared {s : String × String × List ValueType} :
    s ∈ declared ↔ ∃ o ∈ (offers : List (Offer σ)), ∃ b ∈ o.bindings,
      (o.interface, b.signature) = s := by
  have hdeclared : declared = (offers : List (Offer σ)).flatMap fun o =>
    o.bindings.map fun b => (o.interface, b.signature) := rfl
  simp only [hdeclared, List.mem_flatMap, List.mem_map]

variable (σ) in
/-- The registry of the example services can be made, and has what they offer. -/
theorem exists_registry : ∃ r : Registry σ, registry = .ok r ∧ r.Holds offers := by
  have hempty : (Registry.empty : Registry σ).Holds [] := rfl
  obtain ⟨r₁, h₁, hr₁⟩ := hempty.registerImplementation "GreetingService"
    (o := greetingOffer) (by simp [greetingOffer]) (show greeting ∉ [] by decide)
  obtain ⟨r₂, h₂, hr₂⟩ := hr₁.registerImplementation "EchoService"
    (o := echoOffer) (by simp [echoOffer]) (show echo ∉ [greeting] by decide)
  obtain ⟨r₃, h₃, hr₃⟩ := hr₂.registerImplementation "SomeTestMethodsService"
    (o := someTestMethodsOffer) (by simp [someTestMethodsOffer])
    (show someTestMethods ∉ [greeting, echo] by decide)
  obtain ⟨r₄, h₄, hr₄⟩ := hr₃.registerImplementation "ThrowExceptionService"
    (o := throwExceptionOffer) (by simp [throwExceptionOffer])
    (show throwException ∉ [greeting, echo, someTestMethods] by decide)
  refine ⟨r₄, ?_, hr₄⟩
  rw [registry]
  show Except.bind (Registry.empty.registerImplementation _ [greetingOffer.table]) _ = _
  rw [h₁]
  show Except.bind (r₁.registerImplementation _ [echoOffer.table]) _ = _
  rw [h₂]
  show Except.bind (r₂.registerImplementation _ [someTestMethodsOffer.table]) _ = _
  rw [h₃]
  exact h₄

/-! ## What calls lead to -/

variable {o : Offer σ} {b : Binding σ} {c : CallFrame}

theorem strict_of_mem (ho : o ∈ offers) (hb : b ∈ o.bindings) : b.method.Strict := by
  simp only [offers, List.mem_cons, List.not_mem_nil, or_false] at ho
  rcases ho with rfl | rfl | rfl | rfl
  · obtain rfl := List.mem_singleton.mp hb
    exact Method.strict_nullary _ _ _
  · rcases List.mem_pair.mp hb with rfl | rfl
    · exact Method.strict_unary Valued.typed_string _ _ _
    · exact Method.strict_unary Valued.typed_bytes _ _ _
  · simp only [someTestMethodsOffer, List.mem_cons, List.not_mem_nil, or_false] at hb
    rcases hb with rfl | rfl | rfl | rfl
    · exact Method.strict_binary Valued.typed_int32 Valued.typed_int32 _ _ _
    · exact Method.strict_unary Valued.typed_string _ _ _
    · exact Method.strict_unary Valued.typed_int64 _ _ _
    · exact Method.strict_nullary _ _ _
  · obtain rfl := List.mem_singleton.mp hb
    exact Method.strict_unary Valued.typed_string _ _ _

/-- No implementation has two methods of one signature, or of one hash. -/
theorem apart_of_mem (ho : o ∈ offers) :
    InterfaceTable.Apart o.hash (o.bindings.map Binding.signature) ∧
      (o.bindings.map Binding.signature).Nodup := by
  simp only [offers, List.mem_cons, List.not_mem_nil, or_false] at ho
  rcases ho with rfl | rfl | rfl | rfl
  · show InterfaceTable.Apart Signature.id [("greet", [])] ∧ [("greet", [])].Nodup
    decide +kernel
  · show InterfaceTable.Apart Signature.id [("echo", [.str]), ("echo", [.bytes])] ∧
      [("echo", [ValueType.str]), ("echo", [.bytes])].Nodup
    decide +kernel
  · show InterfaceTable.Apart Signature.id
        [("add", [.int, .int]), ("log", [.str]), ("sleep", [.int]), ("throw_exception", [])] ∧
      [("add", [ValueType.int, .int]), ("log", [.str]), ("sleep", [.int]),
        ("throw_exception", [])].Nodup
    decide +kernel
  · show InterfaceTable.Apart Signature.id [("throw_exception", [.str])] ∧
      [("throw_exception", [ValueType.str])].Nodup
    decide +kernel

variable (σ) in
theorem reaches_of_declared (h : (c.interface, c.method, c.types) ∈ declared) :
    ∃ o ∈ (offers : List (Offer σ)), ∃ b ∈ o.bindings, o.interface = c.interface ∧
      b.signature = (c.method, c.types) ∧ Offer.Reaches offers c b := by
  obtain ⟨o, ho, b, hb, hs⟩ := mem_declared.mp h
  obtain ⟨hi, hs⟩ := Prod.mk.inj hs
  obtain ⟨hapart, hnodup⟩ := apart_of_mem ho
  exact ⟨o, ho, b, hb, hi, hs, Offer.reaches_of_mem ho hapart hnodup hb hi hs⟩

/-! ## Numbers -/

/-- A number in the range of those with 32 bits. -/
def Fits (n : Int) : Prop := Int32.minValue.toInt ≤ n ∧ n ≤ Int32.maxValue.toInt

instance (n : Int) : Decidable (Fits n) := inferInstanceAs (Decidable (_ ∧ _))

theorem fits_toInt (n : Int32) : Fits n.toInt := ⟨n.minValue_le_toInt, n.toInt_le⟩

theorem Fits.bmod {n : Int} (h : Fits n) : n.bmod Int32.size = n := by
  obtain ⟨hlo, hhi⟩ := h
  rw [Int32.toInt_minValue] at hlo
  rw [Int32.toInt_maxValue] at hhi
  have hsize : Int32.size = 4294967296 := rfl
  rw [hsize]
  exact Int.bmod_eq_of_le (by omega) (by omega)

theorem toInt_ofInt_of_fits {n : Int} (h : Fits n) : (Int32.ofInt n).toInt = n :=
  Int32.toInt_ofInt.trans h.bmod

theorem toInt_toInt32_of_fits {n : Int64} (h : Fits n.toInt) : n.toInt32.toInt = n.toInt :=
  (Int64.toInt_toInt32 n).trans h.bmod

/-- Narrowing a number loses nothing just if it is in range. -/
theorem toInt64_toInt32_iff (n : Int64) : n.toInt32.toInt64 = n ↔ Fits n.toInt := by
  rw [← Int64.toInt_inj, Int32.toInt_toInt64]
  exact ⟨fun h => h ▸ fits_toInt n.toInt32, toInt_toInt32_of_fits⟩

theorem decode_int32_of_fits {n : Int64} (h : Fits n.toInt) :
    Arguments.decode (.int n) = .ok n.toInt32 := by
  have hvalue : Valued.ofValue (.int n) = .ok n.toInt32 := if_pos ((toInt64_toInt32_iff n).mpr h)
  rw [Arguments.decode, hvalue]

/-- What is said of a number out of range. -/
def wide : Fault := .invalidData (Value.Mismatch.message ⟨.int, .int⟩)

theorem decode_int32_of_not_fits {n : Int64} (h : ¬ Fits n.toInt) :
    (Arguments.decode (.int n) : Except Fault Int32) = .error wide := by
  have hvalue : (Valued.ofValue (.int n) : Except _ Int32) = .error ⟨.int, .int⟩ :=
    if_neg fun hn => h ((toInt64_toInt32_iff n).mp hn)
  rw [Arguments.decode, hvalue, wide]

theorem decodeArguments_add {a b : Int64} (ha : Fits a.toInt) (hb : Fits b.toInt) :
    add.decodeArguments [.int a, .int b] = .ok (a.toInt32, b.toInt32) := by
  show Arguments.decode2 _ = _
  rw [Arguments.decode2_pair, decode_int32_of_fits ha, decode_int32_of_fits hb]

theorem decodeArguments_add_of_wide {a b : Int64} (h : ¬ (Fits a.toInt ∧ Fits b.toInt)) :
    add.decodeArguments [.int a, .int b] = .error wide := by
  show Arguments.decode2 _ = _
  rw [Arguments.decode2_pair]
  by_cases ha : Fits a.toInt
  · rw [decode_int32_of_fits ha, decode_int32_of_not_fits fun hb => h ⟨ha, hb⟩]
  · rw [decode_int32_of_not_fits ha]

theorem checkedAdd_of_fits {a b : Int32} {n : Int} (hn : a.toInt + b.toInt = n) (h : Fits n) :
    checkedAdd a b = .ok (.ofInt n) := by
  subst hn
  exact if_pos h

theorem checkedAdd_of_not_fits {a b : Int32} (h : ¬ Fits (a.toInt + b.toInt)) :
    checkedAdd a b = .error (.raised "ArithmeticException" "integer overflow") :=
  if_neg h

/-! ## Answers -/

/-- What an interface and a method answer to arguments of the declared types. -/
inductive Answer : String → String → List Value → Outcome → Prop where
  | greet : Answer greeting "greet" [] (.value (.str "Hello world!"))
  | echoText (s : String) : Answer echo "echo" [.str s] (.value (.str s))
  | echoBytes (bs : Bytes) : Answer echo "echo" [.bytes bs] (.value (.bytes bs))
  | sum {a b s : Int64} (ha : Fits a.toInt) (hb : Fits b.toInt) (hs : s.toInt = a.toInt + b.toInt)
      (hfits : Fits s.toInt) : Answer someTestMethods "add" [.int a, .int b] (.value (.int s))
  | overflow {a b : Int64} (ha : Fits a.toInt) (hb : Fits b.toInt)
      (hover : ¬ Fits (a.toInt + b.toInt)) :
      Answer someTestMethods "add" [.int a, .int b]
        (.failure (.raised "ArithmeticException" "integer overflow"))
  | wide {a b : Int64} (h : ¬ (Fits a.toInt ∧ Fits b.toInt)) :
      Answer someTestMethods "add" [.int a, .int b]
        (.failure (.framework RemoteFailure.invalidArguments "expected a Int value, found Int"))
  | log (s : String) : Answer someTestMethods "log" [.str s] (.value .null)
  | sleep {millis : Int64} (h : 0 ≤ millis.toInt) :
      Answer someTestMethods "sleep" [.int millis] (.value .null)
  | negativeSleep {millis : Int64} (h : millis.toInt < 0) :
      Answer someTestMethods "sleep" [.int millis]
        (.failure (.raised "IllegalArgumentException" "negative sleep time"))
  | throwUndeclared :
      Answer someTestMethods "throw_exception" []
        (.failure (.raised "IllegalStateException" "A test exception."))
  | throwDeclared (s : String) :
      Answer throwException "throw_exception" [.str s]
        (.failure (.raised "IOException" "A test exception."))

theorem Answer.kind_ne_panic {interface method : String} {vs : List Value} {f : RemoteFailure}
    (h : Answer interface method vs (.failure f)) : f.kind ≠ RemoteFailure.panic := by
  cases h <;> decide

theorem Answer.eq_of_eq {i j m n : String} {vs ws : List Value} {r r' : Outcome}
    (h : Answer i m vs r) (h' : Answer j n ws r') (hi : i = j) (hm : m = n) (hv : vs = ws) :
    r = r' := by
  -- Only the cases of one method meet, and of these the ones that are told apart by numbers
  -- are left to be closed by hand.
  cases h <;> cases h' <;> first
    | exact absurd hi (by decide)
    | exact absurd hm (by decide)
    | cases hv; rfl
    | cases hv
  case sum.sum.refl hs _ _ _ _ _ hs' => rw [Int64.toInt_inj.mp (hs.trans hs'.symm)]
  case sum.overflow.refl hs hfits _ _ hover => exact absurd (hs ▸ hfits) hover
  case sum.wide.refl ha hb _ _ hwide => exact absurd ⟨ha, hb⟩ hwide
  case overflow.sum.refl hover _ hfits _ _ hs => exact absurd (hs ▸ hfits) hover
  case overflow.wide.refl ha hb _ hwide => exact absurd ⟨ha, hb⟩ hwide
  case wide.sum.refl hwide _ _ ha hb _ => exact absurd ⟨ha, hb⟩ hwide
  case wide.overflow.refl hwide ha hb _ => exact absurd ⟨ha, hb⟩ hwide
  case sleep.negativeSleep.refl h h' => exact absurd h' (Int.not_lt.mpr h)
  case negativeSleep.sleep.refl h h' => exact absurd h (Int.not_lt.mpr h')

/-- There is one answer at most. -/
theorem Answer.unique {interface method : String} {vs : List Value} {r r' : Outcome}
    (h : Answer interface method vs r) (h' : Answer interface method vs r') : r = r' :=
  h.eq_of_eq h' rfl rfl rfl

section

variable {α β : Type} {f : α → Except RemoteFailure β} {a : α} {t : Thread σ}

theorem fst_answering_of_ok {x : β} (h : f a = .ok x) : (answering f a t).1 = .returned x := by
  rw [answering, h]

theorem fst_answering_of_error {e : RemoteFailure} (h : f a = .error e) :
    (answering f a t).1 = .raised e := by
  rw [answering, h]

end

variable {vs : List Value} {t : Thread σ}

/-- What a caller gets if a binding is run. -/
def resultOf (b : Binding σ) (vs : List Value) (t : Thread σ) : Outcome :=
  Endpoint.outcome (b.entry.invoke vs t).1

theorem answer_add (a b : Int64) (t : Thread σ) :
    Answer someTestMethods "add" [.int a, .int b]
      (resultOf ⟨add, answering fun p => checkedAdd p.1 p.2⟩ [.int a, .int b] t) := by
  by_cases hwide : Fits a.toInt ∧ Fits b.toInt
  · obtain ⟨ha, hb⟩ := hwide
    have hsum : a.toInt32.toInt + b.toInt32.toInt = a.toInt + b.toInt := by
      rw [toInt_toInt32_of_fits ha, toInt_toInt32_of_fits hb]
    rw [resultOf, Binding.invoke_of_ok _ (decodeArguments_add ha hb)]
    dsimp only
    by_cases hfits : Fits (a.toInt + b.toInt)
    · rw [fst_answering_of_ok (a := (_, _)) (checkedAdd_of_fits hsum hfits)]
      have hs : (Int32.ofInt (a.toInt + b.toInt)).toInt64.toInt = a.toInt + b.toInt := by
        rw [Int32.toInt_toInt64, toInt_ofInt_of_fits hfits]
      exact .sum ha hb hs (hs.symm ▸ hfits)
    · rw [fst_answering_of_error (a := (_, _)) (checkedAdd_of_not_fits (hsum.symm ▸ hfits))]
      exact .overflow ha hb hfits
  · rw [resultOf, Binding.invoke_of_error _ (decodeArguments_add_of_wide hwide)]
    exact .wide hwide

theorem answer_sleep (millis : Int64) (t : Thread σ) :
    Answer someTestMethods "sleep" [.int millis]
      (resultOf ⟨sleep, answering checkedSleep⟩ [.int millis] t) := by
  have hdecode : sleep.decodeArguments [.int millis] = .ok millis := rfl
  rw [resultOf, Binding.invoke_of_ok _ hdecode]
  dsimp only
  by_cases h : millis < 0
  · have hsleep : checkedSleep millis = .error _ := if_pos h
    rw [fst_answering_of_error hsleep]
    exact .negativeSleep (Int64.lt_iff_toInt_lt.mp h)
  · have hsleep : checkedSleep millis = .ok () := if_neg h
    rw [fst_answering_of_ok hsleep]
    exact .sleep (Int.not_lt.mp fun hn => h (Int64.lt_iff_toInt_lt.mpr hn))

theorem answer_of_mem (ho : o ∈ offers) (hb : b ∈ o.bindings)
    (hv : vs.map Value.type = b.method.types) (t : Thread σ) :
    Answer o.interface b.method.name vs (resultOf b vs t) := by
  simp only [offers, List.mem_cons, List.not_mem_nil, or_false] at ho
  rcases ho with rfl | rfl | rfl | rfl
  · obtain rfl := List.mem_singleton.mp hb
    obtain rfl := List.map_eq_nil_iff.mp hv
    exact .greet
  · rcases List.mem_pair.mp hb with rfl | rfl
    · obtain ⟨s, rfl⟩ := Value.eq_str_of_types hv
      exact .echoText s
    · obtain ⟨bs, rfl⟩ := Value.eq_bytes_of_types hv
      exact .echoBytes bs
  · simp only [someTestMethodsOffer, List.mem_cons, List.not_mem_nil, or_false] at hb
    rcases hb with rfl | rfl | rfl | rfl
    · obtain ⟨m, n, rfl⟩ := Value.eq_int_int_of_types hv
      exact answer_add m n t
    · obtain ⟨s, rfl⟩ := Value.eq_str_of_types hv
      exact .log s
    · obtain ⟨n, rfl⟩ := Value.eq_int_of_types hv
      exact answer_sleep n t
    · obtain rfl := List.map_eq_nil_iff.mp hv
      exact .throwUndeclared
  · obtain rfl := List.mem_singleton.mp hb
    obtain ⟨s, rfl⟩ := Value.eq_str_of_types hv
    exact .throwDeclared s

/-! ## Calls -/

variable {e : Endpoint σ}

theorem result_of_missing_interface (he : e.registry.Holds offers) (hi : c.interface ∉ interfaces)
    (t : Thread σ) : (e.process c t).1.result = .failure (Endpoint.interfaceMissing c) := by
  rw [Endpoint.result_process, Endpoint.dispatch_noInterface (he.lookup?_eq_none hi)]
  rfl

theorem result_of_missing_method (he : e.registry.Holds offers) (hi : c.interface ∈ interfaces)
    (hm : (c.interface, c.method, c.types) ∉ declared) (t : Thread σ) :
    (e.process c t).1.result = .failure (Endpoint.methodMissing c) := by
  have hoffered : c.interface ∈ (offers : List (Offer σ)).map Offer.interface := hi
  obtain ⟨o, ho, hinterface⟩ := List.mem_map.mp hoffered
  have hlookup : e.registry.lookup? c.interface = some o.table :=
    hinterface ▸ he.lookup?_of_mem ho
  have hfind : o.table.find? c.method c.types = none := by
    refine Option.eq_none_iff_forall_ne_some.mpr fun entry hentry => hm ?_
    obtain ⟨b, hb, -⟩ := InterfaceTable.isLast_of_find? hentry
    exact mem_declared.mpr ⟨o, ho, b, hb.mem, Prod.ext hinterface hb.holds⟩
  rw [Endpoint.result_process, Endpoint.dispatch_noSuchMethod hlookup hfind]
  rfl

theorem result_of_declared (he : e.registry.Holds offers)
    (h : (c.interface, c.method, c.types) ∈ declared) (t : Thread σ) :
    ∃ o ∈ (offers : List (Offer σ)), ∃ b ∈ o.bindings, o.interface = c.interface ∧
      b.signature = (c.method, c.types) ∧
      (e.process c t).1.result = resultOf b c.arguments (e.accept c t) := by
  obtain ⟨o, ho, b, hb, hi, hs, hreaches⟩ := reaches_of_declared σ h
  refine ⟨o, ho, b, hb, hi, hs, ?_⟩
  rw [Endpoint.result_process, Endpoint.dispatch_reaches he hreaches, resultOf]

theorem result_of_mismatch (he : e.registry.Holds offers)
    (h : (c.interface, c.method, c.types) ∈ declared)
    (hv : c.arguments.map Value.type ≠ c.types) (t : Thread σ) :
    ∃ text, (e.process c t).1.result =
      .failure (.framework RemoteFailure.invalidArguments text) := by
  obtain ⟨o, ho, b, hb, -, hs, hresult⟩ := result_of_declared he h t
  obtain ⟨-, ht⟩ := Prod.mk.inj hs
  cases ha : b.method.decodeArguments c.arguments with
  | error fault =>
    rw [hresult, resultOf, Binding.invoke_of_error _ ha]
    exact ⟨fault.message, rfl⟩
  | ok a => exact absurd ((strict_of_mem ho hb _ a ha).trans ht) hv

theorem answer_of_declared (he : e.registry.Holds offers)
    (h : (c.interface, c.method, c.types) ∈ declared)
    (hv : c.arguments.map Value.type = c.types) (t : Thread σ) :
    Answer c.interface c.method c.arguments (e.process c t).1.result := by
  obtain ⟨o, ho, b, hb, hi, hs, hresult⟩ := result_of_declared he h t
  obtain ⟨hm, ht⟩ := Prod.mk.inj hs
  rw [hresult, ← hi, ← hm]
  exact answer_of_mem ho hb (hv.trans ht.symm) _

theorem kind_ne_panic (he : e.registry.Holds offers) {f : RemoteFailure}
    (hf : (e.process c t).1.result = .failure f) : f.kind ≠ RemoteFailure.panic := by
  by_cases h : (c.interface, c.method, c.types) ∈ declared
  · by_cases hv : c.arguments.map Value.type = c.types
    · have hanswer := answer_of_declared he h hv t
      rw [hf] at hanswer
      exact hanswer.kind_ne_panic
    · obtain ⟨text, hresult⟩ := result_of_mismatch he h hv t
      obtain rfl := Outcome.failure.inj (hresult.symm.trans hf)
      show RemoteFailure.invalidArguments ≠ RemoteFailure.panic
      decide
  · by_cases hi : c.interface ∈ interfaces
    · obtain rfl := Outcome.failure.inj ((result_of_missing_method he hi h t).symm.trans hf)
      show RemoteFailure.noSuchMethod ≠ RemoteFailure.panic
      decide
    · obtain rfl := Outcome.failure.inj ((result_of_missing_interface he hi t).symm.trans hf)
      show RemoteFailure.noInterface ≠ RemoteFailure.panic
      decide

/-- What a call to the example services comes to. -/
structure Documented (c : CallFrame) (result : Outcome) : Prop where
  noInterface : c.interface ∉ interfaces → result = .failure (Endpoint.interfaceMissing c)
  noSuchMethod : c.interface ∈ interfaces → (c.interface, c.method, c.types) ∉ declared →
    result = .failure (Endpoint.methodMissing c)
  mismatch : (c.interface, c.method, c.types) ∈ declared → c.arguments.map Value.type ≠ c.types →
    ∃ text, result = .failure (.framework RemoteFailure.invalidArguments text)
  answer : (c.interface, c.method, c.types) ∈ declared → c.arguments.map Value.type = c.types →
    ∀ r, Answer c.interface c.method c.arguments r ↔ r = result
  not_panic : ∀ f, result = .failure f → f.kind ≠ RemoteFailure.panic

/-- The registry of the example services can be made, and an endpoint with it answers every
call as it should, whatever its policy.  A call for another interface, or for a signature
that its interface does not declare, is told so, even if the signature shares its hash with
one that is declared.  Arguments of other types than the declared ones are refused.  What is
left is answered by the one case of `Answer` that applies.  Nothing ever breaks down. -/
theorem answers_as_documented : ∃ r : Registry σ, registry = .ok r ∧
    ∀ (policy : EndpointPolicy) (c : CallFrame) (t : Thread σ),
      Documented c ((⟨r, policy⟩ : Endpoint σ).process c t).1.result := by
  obtain ⟨r, hr, he⟩ := exists_registry σ
  refine ⟨r, hr, fun policy c t => ?_⟩
  have hholds : (⟨r, policy⟩ : Endpoint σ).registry.Holds offers := he
  exact
    { noInterface := fun hi => result_of_missing_interface hholds hi t
      noSuchMethod := fun hi hm => result_of_missing_method hholds hi hm t
      mismatch := fun h hv => result_of_mismatch hholds h hv t
      answer := fun h hv r =>
        have hanswer := answer_of_declared hholds h hv t
        ⟨fun hr => hr.unique hanswer, fun hr => hr ▸ hanswer⟩
      not_panic := fun f hf => kind_ne_panic hholds hf }

/-- A call for a sum. -/
def adding (a b : Int64) : CallFrame :=
  ⟨someTestMethods, "add", [.int, .int], [.int a, .int b], 0, none, by decide, by decide⟩

/-- A sum at the end of its range, and one beyond it. -/
theorem answers_as_documented_adding : ∃ r : Registry Unit, registry = .ok r ∧
    ((⟨r, {}⟩ : Endpoint Unit).process (adding 2147483646 1) (.fresh ())).1.result
      = .value (.int 2147483647) ∧
    ((⟨r, {}⟩ : Endpoint Unit).process (adding 2147483647 1) (.fresh ())).1.result
      = .failure (.raised "ArithmeticException" "integer overflow") := by
  obtain ⟨r, hr, hall⟩ := @answers_as_documented Unit
  refine ⟨r, hr, ?_, ?_⟩
  · have hdocumented := hall {} (adding 2147483646 1) (.fresh ())
    have hsum : Answer someTestMethods "add" _ (.value (.int 2147483647)) :=
      .sum (a := 2147483646) (b := 1) (by decide) (by decide) (by decide) (by decide)
    exact ((hdocumented.answer (by decide) rfl _).mp hsum).symm
  · have hdocumented := hall {} (adding 2147483647 1) (.fresh ())
    have hover : Answer someTestMethods "add" _ _ :=
      .overflow (a := 2147483647) (b := 1) (by decide) (by decide) (by decide)
    exact ((hdocumented.answer (by decide) rfl _).mp hover).symm

end Example
end RemoteCall
