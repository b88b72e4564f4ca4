import RemoteCall.Proofs.Record.Acts
import RemoteCall.Record.LengthRecords
import RemoteCall.Stream.Script

/-!
Ciphertext on its way in.

Of all the acts of a pump only two touch what comes in: the socket delivers bytes, and the
engine unwraps.  The accounts of a pump (`Pump.Accounted`) balance when it is new and are
kept by every act (`Accounted.step`).  Every operation is made of acts, so they balance
whenever an operation returns, however it ended.
-/

namespace RemoteCall
namespace Record

/-- An unwrap may move the cursor of its source window, and changes nothing else of it. -/
structure Engine.KeepsRecords {ε : Type} (e : Engine ε) : Prop where
  storage : ∀ src dst s, (e.unwrap src dst s).src.storage = src.storage
  limit : ∀ src dst s, (e.unwrap src dst s).src.limit = src.limit

theorem Engine.KeepsRecords.taken_append {ε : Type} {e : Engine ε} (he : e.KeepsRecords)
    (src dst : Window) (s : ε) :
    (e.unwrap src dst s).src.before ++ (e.unwrap src dst s).src.span = src.before ++ src.span := by
  have hstorage := he.storage src dst s
  have hlimit := he.limit src dst s
  unfold Window.storage at hstorage
  unfold Window.limit at hlimit
  rw [← List.length_append, ← List.length_append] at hlimit
  exact (List.append_inj hstorage hlimit).1

namespace Pump

namespace Act

def received : Act → Bytes
  | .receive came => came
  | _ => []

def consumed : Act → Bytes
  | .unwrap _ taken => taken
  | _ => []

end Act

def received (acts : List Act) : Bytes := acts.flatMap Act.received

def consumed (acts : List Act) : Bytes := acts.flatMap Act.consumed

theorem received_snoc (acts : List Act) (a : Act) :
    received (acts ++ [a]) = received acts ++ a.received := by
  rw [received, List.flatMap_append, List.flatMap_singleton, received]

theorem consumed_snoc (acts : List Act) (a : Act) :
    consumed (acts ++ [a]) = consumed acts ++ a.consumed := by
  rw [consumed, List.flatMap_append, List.flatMap_singleton, consumed]

variable {ι ω ε : Type} {d : Ends ι ω ε} {p q : Pump ι ω ε}

/-! ## Accounts -/

/-- The accounts of what came in: what the engine has consumed and what is still buffered
are all that was received, and every unwrap was offered all that it was not yet given. -/
structure Accounted (size : Nat) (acts : List Act) (p : Pump ι ω ε) : Prop where
  balance : consumed acts ++ p.netIn.before = received acts
  offers : ∀ front offered taken rest, acts = front ++ .unwrap offered taken :: rest →
    consumed front ++ offered = received front ∧ taken <+: offered
  writable : p.netIn.after = []
  capacity : p.netIn.capacity = size

theorem accounted_new (d : Ends ι ω ε) (input : ι) (output : ω) (engine : ε) :
    Accounted (d.engine.recordSize engine) [] (new d input output engine) where
  balance := rfl
  offers front offered taken rest h := by simp at h
  writable := rfl
  capacity := Window.capacity_new _

theorem offers_snoc {P : List Act → Bytes → Bytes → Prop} {acts : List Act} {a : Act}
    (h : ∀ front offered taken rest, acts = front ++ .unwrap offered taken :: rest →
      P front offered taken)
    (ha : ∀ offered taken, a = .unwrap offered taken → P acts offered taken) :
    ∀ front offered taken rest, acts ++ [a] = front ++ .unwrap offered taken :: rest →
      P front offered taken := by
  intro front offered taken rest hsplit
  -- The unwrap is the last act, or it was there before.
  rcases List.eq_nil_or_concat rest with rfl | ⟨rest, b, rfl⟩
  · obtain ⟨rfl, hlast⟩ := List.append_inj' hsplit rfl
    exact ha offered taken (List.cons.inj hlast).1
  · rw [List.concat_eq_append, ← List.cons_append, ← List.append_assoc] at hsplit
    exact h front offered taken rest (List.append_inj' hsplit rfl).1

theorem Accounted.aside {size : Nat} {acts : List Act} {a : Act} (h : Accounted size acts p)
    (hr : a.received = []) (ha : ∀ offered taken, a ≠ .unwrap offered taken)
    (hq : q.netIn = p.netIn) : Accounted size (acts ++ [a]) q where
  balance := by
    have hc : a.consumed = [] := by
      unfold Act.consumed
      split
      · exact absurd rfl (ha _ _)
      · rfl
    rw [received_snoc, consumed_snoc, hr, hc, List.append_nil, List.append_nil, hq, h.balance]
  offers := offers_snoc h.offers fun offered taken he => absurd he (ha offered taken)
  writable := hq ▸ h.writable
  capacity := hq ▸ h.capacity

theorem Accounted.receive {size : Nat} {acts : List Act} (h : Accounted size acts p)
    {came : Bytes} (hcame : came.length ≤ p.netIn.remaining) (hq : q.netIn = p.netIn.put came) :
    Accounted size (acts ++ [.receive came]) q where
  balance := by
    have hbefore : q.netIn.before = p.netIn.before ++ came := by
      have hroom : came.length ≤ p.netIn.span.length := hcame
      rw [hq, Window.put, List.take_of_length_le hroom]
    rw [received_snoc, consumed_snoc, hbefore]
    show consumed acts ++ [] ++ (p.netIn.before ++ came) = received acts ++ came
    rw [List.append_nil, ← List.append_assoc, h.balance]
  offers := offers_snoc h.offers fun _ _ ha => by cases ha
  writable := hq ▸ h.writable
  capacity := by rw [hq, Window.capacity_put, h.capacity]

theorem Accounted.unwrap {size : Nat} {acts : List Act} (he : d.engine.KeepsRecords)
    (h : Accounted size acts p) (app : Window) :
    Accounted size (acts ++ [.unwrap p.netIn.flip.span
      (d.engine.unwrap p.netIn.flip app p.engine).src.before]) (p.unwrap d app).2.2 := by
  -- The window is turned first, so all that is buffered lies behind its cursor.
  have hsplit := he.taken_append p.netIn.flip app p.engine
  have hoffered : p.netIn.flip.before ++ p.netIn.flip.span = p.netIn.before := List.nil_append _
  rw [hoffered] at hsplit
  refine ⟨?_, offers_snoc h.offers ?_, rfl, ?_⟩
  · rw [received_snoc, consumed_snoc]
    show consumed acts ++ (d.engine.unwrap p.netIn.flip app p.engine).src.before
      ++ (d.engine.unwrap p.netIn.flip app p.engine).src.span = received acts ++ []
    rw [List.append_assoc, hsplit, h.balance, List.append_nil]
  · intro offered taken ha
    obtain ⟨rfl, rfl⟩ := Act.unwrap.inj ha
    exact ⟨h.balance, _, hsplit⟩
  · show (d.engine.unwrap p.netIn.flip app p.engine).src.compact.capacity = size
    rw [Window.capacity_compact, ← Window.length_storage, he.storage, Window.length_storage,
      Window.capacity_flip, h.capacity]

theorem netIn_send (d : Ends ι ω ε) (p : Pump ι ω ε) : (p.send d).2.netIn = p.netIn := by
  unfold send
  dsimp only
  split
  · rfl
  · split <;> rfl

theorem Accounted.step {size : Nat} {acts : List Act} {a : Act} (he : d.engine.KeepsRecords)
    (h : Accounted size acts p) (ha : Does d p a q) : Accounted size (acts ++ [a]) q := by
  cases ha with
  | receive hr => exact h.receive (d.source.length_readSome_le hr) rfl
  | unwrap app => exact h.unwrap he app
  | send => exact h.aside rfl nofun (netIn_send d p)
  | fail | wrap | beginHandshake | runTask | closeOutbound | tidy => exact h.aside rfl nofun rfl

/-- The accounts of a whole run, by induction on its acts. -/
theorem Accounted.steps {size : Nat} {acts more : List Act} (he : d.engine.KeepsRecords)
    (h : Accounted size acts p) (hs : Steps (Does d) p more q) :
    Accounted size (acts ++ more) q := by
  induction hs with
  | refl =>
    rw [List.append_nil]
    exact h
  | snoc _ ha ih =>
    rw [← List.append_assoc]
    exact ih.step he ha

/-- No ciphertext is lost, repeated or reordered on its way in.  Whatever the engine reports
and however the socket behaves, at every return from an operation what the engine has
consumed and what is still buffered are just what the socket has delivered, every unwrap
was offered all of it that was not consumed before, and the window is ready to be written.
This goes on up to the first time that the inbound side is closed; even then the accounts
balance until the window is cleared. -/
theorem ciphertext_accounted (d : Ends ι ω ε) (he : d.engine.KeepsRecords) (input : ι)
    (output : ω) (engine : ε) (ops : List Operation) (q : Pump ι ω ε)
    (h : Steps (Operates d) (new d input output engine) ops q) :
    ∃ acts, Steps (Does d) (new d input output engine) acts q ∧
      Accounted (d.engine.recordSize engine) acts q ∧
      q.netIn.limit = q.netIn.capacity ∧ q.netIn.position ≤ q.netIn.capacity ∧
      q.bufferedCiphertext = (received acts).length - (consumed acts).length ∧
      ∀ limit, (q.readClosing d limit).1 = some (.ok ()) → ∃ more r,
        Steps (Does d) q more r ∧ Accounted (d.engine.recordSize engine) (acts ++ more) r ∧
        (q.readClosing d limit).2 =
          { r with engine := d.engine.closeInbound r.engine, netIn := r.netIn.clear } := by
  obtain ⟨acts, hacts⟩ := reaches_of_operations h
  have haccounted := (accounted_new d input output engine).steps he hacts
  rw [List.nil_append] at haccounted
  refine ⟨acts, hacts, haccounted, ?_, ?_, ?_, ?_⟩
  · rw [Window.limit, Window.capacity, haccounted.writable, List.length_nil, Nat.add_zero]
  · rw [Window.position, Window.capacity]
    omega
  · rw [← haccounted.balance, List.length_append, Nat.add_sub_cancel_left]
    rfl
  · intro limit hdone
    obtain ⟨r, ⟨more, hmore⟩, -, hclosed⟩ := exists_readClosing d limit q
    exact ⟨more, r, hmore, haccounted.steps he hmore, hclosed hdone⟩

end Pump

theorem LengthRecords.exists_skip (src dst : Window) (e : LengthRecords) :
    ∃ n, (e.unwrap src dst).src = src.skip n := by
  have hnone : ∃ n, src = src.skip n := ⟨0, src.skip_zero.symm⟩
  unfold LengthRecords.unwrap
  split
  · split
    · exact hnone
    · split
      · exact hnone
      · exact ⟨2, rfl⟩
  · split
    · exact hnone
    · split
      · exact hnone
      · split
        · exact ⟨1, rfl⟩
        · split
          · exact hnone
          · split
            · exact hnone
            · exact ⟨_, rfl⟩

theorem LengthRecords.keepsRecords : LengthRecords.engine.KeepsRecords where
  storage src dst e := by
    obtain ⟨n, hn⟩ := LengthRecords.exists_skip src dst e
    exact (congrArg Window.storage hn).trans (src.storage_skip n)
  limit src dst e := by
    obtain ⟨n, hn⟩ := LengthRecords.exists_skip src dst e
    exact (congrArg Window.limit hn).trans (src.limit_skip n)

namespace Pump

/-- A handshake and a read, when the first chunk holds the greeting of the peer, a whole
record and the first byte of the next one. -/
theorem ciphertext_accounted_handshake_read :
    let d : Ends (List Script.Arrival) Script.Uptake LengthRecords :=
      ⟨Script.source, Script.sink, LengthRecords.engine⟩
    let start := new d [.chunk [0x68, 0x69, 2, 1, 2, 5]] .empty (.new [.needUnwrap] 16 16)
    let q := (((start.handshake d 3).2).read d 3 (Window.new 16)).2.1
    LengthRecords.engine.KeepsRecords ∧
      Steps (Operates d) start [.handshake, .read (Window.new 16)] q ∧
      q.bufferedCiphertext = 1 ∧
      ∃ acts, Steps (Does d) start acts q ∧ consumed acts ++ [5] = received acts := by
  intro d start q
  have hsteps : Steps (Operates d) start ([.handshake] ++ [.read (Window.new 16)]) q :=
    (Steps.single (.handshake 3 start)).snoc (.read 3 (Window.new 16) _)
  obtain ⟨acts, hacts, haccounted, -⟩ :=
    ciphertext_accounted d LengthRecords.keepsRecords _ _ _ _ q hsteps
  have hheld : q.netIn.before = [5] := by
    simp only [q, start, d]
    decide +kernel
  refine ⟨LengthRecords.keepsRecords, hsteps, ?_, acts, hacts, ?_⟩
  · rw [bufferedCiphertext, Window.position, hheld]
    rfl
  · rw [← hheld]
    exact haccounted.balance

end Pump
end Record
end RemoteCall
