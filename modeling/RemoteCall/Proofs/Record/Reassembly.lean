import RemoteCall.Proofs.Record.Fragments
import RemoteCall.Proofs.Stream.Delivery

/-!
Length records on their way in.

Records arrive cut anywhere.  The front of a record that is not there in full makes the
engine ask for more, and `netIn` keeps it and has room for the rest of it
(`Pump.read_gathers`).  A whole record is handed out if its plaintext fits, and kept if not.
So however the socket cuts the bytes, what the reads answer depends on the fragments and on
the windows alone (`Pump.handedOut`).
-/

namespace RemoteCall
namespace Record
namespace LengthRecords

/-! ## Unwrapping -/

/-- Ready to unwrap: no greeting is awaited, and the inbound side is not closed. -/
structure InboundOpen (e : LengthRecords) : Prop where
  settled : e.handshake ≠ .needUnwrap
  notDone : e.inboundDone = false

/-- Bytes that are the front of a record and not all of it. -/
def Incomplete : Bytes → Prop
  | [] => True
  | len :: rest => len ≠ 0 ∧ rest.length < len.toNat

theorem toNat_ofNat_length {f : Bytes} (h : f.length ≤ maxPlaintext) :
    (UInt8.ofNat f.length).toNat = f.length := by
  rw [maxPlaintext] at h
  rw [UInt8.toNat_ofNat']
  omega

theorem ofNat_length_ne_zero {f : Bytes} (hpos : 0 < f.length) (h : f.length ≤ maxPlaintext) :
    UInt8.ofNat f.length ≠ 0 := by
  intro he
  have := congrArg UInt8.toNat he
  rw [toNat_ofNat_length h, UInt8.toNat_zero] at this
  omega

theorem incomplete_of_prefix {f front : Bytes} (hpos : 0 < f.length)
    (h : f.length ≤ maxPlaintext) (hfront : front <+: record f) (hne : front ≠ record f) :
    Incomplete front := by
  cases front with
  | nil => trivial
  | cons len rest =>
    obtain ⟨rfl, hrest⟩ := List.cons_prefix_cons.mp hfront
    refine ⟨ofNat_length_ne_zero hpos h, ?_⟩
    rw [toNat_ofNat_length h]
    refine Nat.lt_of_le_of_ne hrest.length_le fun hlen => hne ?_
    rw [record, hrest.eq_of_length hlen]

variable {e : LengthRecords} {src : Window} (dst : Window) {f more : Bytes}

theorem unwrap_incomplete (he : e.InboundOpen) (h : Incomplete src.span) :
    e.unwrap src dst = moved .bufferUnderflow 0 0 src dst e := by
  rw [unwrap, if_neg he.settled, he.notDone, if_neg Bool.false_ne_true]
  cases hspan : src.span with
  | nil => rfl
  | cons len rest =>
    rw [hspan] at h
    simp only [if_neg h.1, if_pos h.2]

theorem unwrap_record (he : e.InboundOpen) (hpos : 0 < f.length) (hle : f.length ≤ maxPlaintext)
    (hsrc : src.span = record f ++ more) :
    e.unwrap src dst =
      if dst.remaining < f.length then moved .bufferOverflow 0 0 src dst e
      else moved .ok (f.length + 1) f.length (src.skip (f.length + 1)) (dst.put f) e := by
  have hwhole : ¬ (f ++ more).length < f.length := by
    rw [List.length_append]
    omega
  rw [unwrap, if_neg he.settled, he.notDone, if_neg Bool.false_ne_true, hsrc, record,
    List.cons_append]
  simp only [if_neg (ofNat_length_ne_zero hpos hle), toNat_ofNat_length hle, if_neg hwhole,
    List.take_left]

theorem unwrap_close (he : e.InboundOpen) (hsrc : src.span = 0 :: more) :
    e.unwrap src dst = moved .closed 1 0 (src.skip 1) dst { e with inboundDone := true } := by
  rw [unwrap, if_neg he.settled, he.notDone, if_neg Bool.false_ne_true, hsrc]
  rfl

theorem unwrap_done (hsettled : e.handshake ≠ .needUnwrap) (hdone : e.inboundDone = true) :
    e.unwrap src dst = moved .closed 0 0 src dst e := by
  rw [unwrap, if_neg hsettled, if_pos hdone]

end LengthRecords

namespace Pump

open LengthRecords

variable {ι ω : Type} {source : Source ι} {sink : Sink ω} {size : Nat}
  {q : Pump ι ω LengthRecords}

theorem unwrap_moved {app src dst : Window} {status : Status} {consumed produced : Nat}
    {e : LengthRecords} (h : q.engine.unwrap q.netIn.flip app =
      moved status consumed produced src dst e) :
    q.unwrap (ends source sink) app =
      (.ok ⟨status, e.handshake, consumed, produced⟩, dst,
        { q with engine := e, netIn := src.compact }) := by
  show (_, _, _) = _
  rw [show (ends source sink).engine.unwrap q.netIn.flip app q.engine = _ from h]
  rfl

/-! ## Gathering a record -/

/-- A pump that is past its handshake and has `size` bytes of room for records, and to which
`bytes` come: some are buffered, and the socket delivers the others. -/
structure Receives (source : Source ι) (size : Nat) (bytes : Bytes)
    (q : Pump ι ω LengthRecords) : Prop where
  opened : q.engine.InboundOpen
  writable : q.netIn.after = []
  room : q.netIn.capacity = size
  comes : ∃ rest, q.netIn.before ++ rest = bytes ∧ source.Delivers q.input rest

theorem fill_delivers {ε : Type} {d : Ends ι ω ε} {q : Pump ι ω ε} {rest : Bytes}
    (hroom : 0 < q.netIn.remaining) (h : d.source.Delivers q.input rest) :
    ∃ came more i, rest = came ++ more ∧ (came = [] → more = []) ∧ d.source.Delivers i more ∧
      d.source.readSome q.netIn.remaining q.input = (.ok came, i) ∧
      q.fill d = (.ok (came ≠ []), { q with input := i, netIn := q.netIn.put came }) := by
  obtain ⟨came, more, i, hread, hrest, hnil, hmore⟩ := Source.readSome_delivers hroom h
  refine ⟨came, more, i, hrest, hnil, hmore, hread, ?_⟩
  rw [fill, if_neg (Nat.ne_of_gt hroom)]
  simp only [hread]
  cases came with
  | nil => simp [Window.put_nil]
  | cons b bs => simp

theorem fillOn_delivers {ε α : Type} {d : Ends ι ω ε} {q : Pump ι ω ε} {rest : Bytes}
    (atEnd : Except Fault α) (hroom : 0 < q.netIn.remaining)
    (h : d.source.Delivers q.input rest) :
    (rest = [] ∧ ∃ i, d.source.Delivers i [] ∧
      d.source.readSome q.netIn.remaining q.input = (.ok [], i) ∧
      q.fillOn d atEnd = (.stop atEnd, { q with input := i })) ∨
    ∃ came more i, came ≠ [] ∧ rest = came ++ more ∧ d.source.Delivers i more ∧
      d.source.readSome q.netIn.remaining q.input = (.ok came, i) ∧
      q.fillOn d atEnd = (.again, { q with input := i, netIn := q.netIn.put came }) := by
  obtain ⟨came, more, i, hrest, hnil, hmore, hread, hfill⟩ := fill_delivers hroom h
  by_cases hcame : came = []
  · subst hcame
    obtain rfl := hnil rfl
    refine .inl ⟨hrest, i, hmore, hread, ?_⟩
    simp only [fillOn, hfill, Window.put_nil, ne_eq, not_true_eq_false, decide_false]
  · refine .inr ⟨came, more, i, hcame, hrest, hmore, hread, ?_⟩
    simp only [fillOn, hfill, hcame, ne_eq, not_false_eq_true, decide_true]

/-- While the front of what is to come is incomplete, a read goes on as one of a pump with
more bytes buffered, up to the one that has all of `head`. -/
theorem read_gathers (sink : Sink ω) {head more : Bytes} (hhead : head.length ≤ size)
    (hshort : ∀ front, front <+: head → front ≠ head → Incomplete front)
    (hq : q.Receives source size (head ++ more)) {limit : Nat}
    (hlimit : (head ++ more).length < limit) (app : Window) :
    ∃ (p : Pump ι ω LengthRecords) (left : Nat), p.Receives source size (head ++ more) ∧
      head <+: p.netIn.before ∧
      q.read (ends source sink) limit app = p.read (ends source sink) (left + 1) app := by
  -- Induction on the limit, which always exceeds the bytes that the socket still holds.
  obtain ⟨rest, hrest, hdelivers⟩ := hq.comes
  have hlimit' : rest.length < limit := by
    rw [← hrest, List.length_append] at hlimit
    omega
  clear hlimit
  induction limit generalizing q rest with
  | zero => omega
  | succ limit ih =>
    have hbuffered : q.netIn.before <+: head ++ more := ⟨rest, hrest⟩
    rcases Nat.lt_or_ge q.netIn.before.length head.length with hlt | hge
    · have hfront := List.prefix_of_prefix_length_le hbuffered (head.prefix_append more)
        (Nat.le_of_lt hlt)
      have hincomplete := hshort _ hfront fun he => Nat.ne_of_lt hlt (congrArg List.length he)
      have hroom : 0 < q.netIn.remaining := by
        have hcapacity := hq.room
        rw [Window.capacity, hq.writable, List.length_nil] at hcapacity
        rw [Window.remaining]
        omega
      obtain ⟨rfl, -⟩ | ⟨came, later, i, hsome, rfl, hlater, hread, hfill⟩ :=
        fillOn_delivers (α := Option Nat) (d := ends source sink) (.ok none) hroom hdelivers
      · have hall := congrArg List.length hrest
        rw [List.append_nil, List.length_append] at hall
        omega
      have hunwrap : q.unwrap (ends source sink) app =
          (.ok ⟨.bufferUnderflow, q.engine.handshake, 0, 0⟩, app, q) := by
        rw [unwrap_moved (unwrap_incomplete app hq.opened hincomplete),
          Window.compact_flip hq.writable]
      have hstep : readStep (ends source sink) (q, app) =
          (.again, { q with input := i, netIn := q.netIn.put came }, app) := by
        simp only [readStep, hunwrap, hfill]
      have hput : (q.netIn.put came).before ++ later = head ++ more := by
        rw [Window.before_put (source.length_readSome_le hread), List.append_assoc, hrest]
      have hless : later.length < limit := by
        rw [List.length_append] at hlimit'
        have := List.length_pos_iff.mpr hsome
        omega
      obtain ⟨p, left, hp, hwhole, hreads⟩ :=
        @ih { q with input := i, netIn := q.netIn.put came }
          ⟨hq.opened, hq.writable, (Window.capacity_put _ _).trans hq.room, later, hput, hlater⟩
          later hput hlater hless
      refine ⟨p, left, hp, hwhole, ?_⟩
      rw [← hreads, read, repeatStep, hstep]
      rfl
    · have hwhole := List.prefix_of_prefix_length_le (head.prefix_append more) hbuffered hge
      exact ⟨q, limit, hq, hwhole, rfl⟩

/-! ## One read -/

def noRoom : Fault := .other "plaintext buffer has no room for decrypted data"

/-- The next record is handed out if its plaintext fits, and is still the next one if not. -/
theorem read_record (sink : Sink ω) {f more : Bytes} (hpos : 0 < f.length)
    (hle : f.length ≤ maxPlaintext)
    (hsize : f.length + 1 ≤ size) (hq : q.Receives source size (record f ++ more)) {limit : Nat}
    (hlimit : (record f ++ more).length < limit) (app : Window) :
    ∃ p, if app.remaining < f.length then
        q.read (ends source sink) limit app = (some (.error noRoom), p, app) ∧
          p.Receives source size (record f ++ more)
      else
        q.read (ends source sink) limit app =
            (some (.ok (some f.length)), p, (app.put f).flip) ∧
          p.Receives source size more := by
  obtain ⟨p, left, hp, ⟨tail, htail⟩, hread⟩ := read_gathers sink hsize
    (fun front => incomplete_of_prefix hpos hle) hq hlimit app
  obtain ⟨rest, hrest, hdelivers⟩ := hp.comes
  have hwhole : p.netIn.flip.span = record f ++ tail := htail.symm
  have hunwrap := unwrap_record app hp.opened hpos hle hwhole
  rw [hread, read, repeatStep]
  by_cases hroom : app.remaining < f.length
  · rw [if_pos hroom] at hunwrap
    refine ⟨p, ?_⟩
    rw [if_pos hroom]
    refine ⟨?_, hp⟩
    simp only [readStep, unwrap_moved hunwrap, Window.compact_flip hp.writable]
    rfl
  · rw [if_neg hroom] at hunwrap
    refine ⟨{ p with netIn := (p.netIn.flip.skip (f.length + 1)).compact }, ?_⟩
    rw [if_neg hroom]
    refine ⟨?_, hp.opened, rfl, ?_, rest, ?_, hdelivers⟩
    · simp only [readStep, unwrap_moved hunwrap, if_pos hpos]
    · rw [Window.capacity_compact, Window.capacity_skip, Window.capacity_flip, hp.room]
    · show p.netIn.before.drop (record f).length ++ rest = more
      rw [← htail, List.append_assoc] at hrest
      rw [← htail, List.drop_left]
      exact List.append_cancel_left hrest

/-- Nothing more comes to the pump: its peer has closed, or the stream has ended. -/
def AtEnd (source : Source ι) (size : Nat) (q : Pump ι ω LengthRecords) : Prop :=
  q.Receives source size [] ∨ (q.engine.handshake ≠ .needUnwrap ∧ q.engine.inboundDone = true)

theorem read_atEnd (sink : Sink ω) (hsize : 0 < size) (hq : q.AtEnd source size) {limit : Nat}
    (hlimit : 0 < limit) (app : Window) :
    ∃ p, q.read (ends source sink) limit app = (some (.ok none), p, app) ∧
      p.AtEnd source size := by
  obtain ⟨limit, rfl⟩ := Nat.exists_eq_add_of_le' hlimit
  rcases hq with hq | ⟨hsettled, hdone⟩
  · obtain ⟨rest, hrest, hdelivers⟩ := hq.comes
    obtain ⟨hbefore, rfl⟩ := List.append_eq_nil_iff.mp hrest
    have hroom : 0 < q.netIn.remaining := by
      have hcapacity := hq.room
      rw [Window.capacity, hq.writable, hbefore] at hcapacity
      rw [Window.remaining]
      simp only [List.length_nil] at hcapacity
      omega
    obtain ⟨came, more, i, hsome, hcame, -⟩ | ⟨-, i, hmore, -, hfill⟩ :=
      (fillOn_delivers (α := Option Nat) (d := ends source sink) (.ok none) hroom hdelivers).symm
    · exact absurd (List.append_eq_nil_iff.mp hcame.symm).1 hsome
    have hincomplete : Incomplete q.netIn.flip.span := by
      show Incomplete q.netIn.before
      rw [hbefore]
      trivial
    refine ⟨{ q with input := i }, ?_, .inl ⟨hq.opened, hq.writable, hq.room, [], ?_, hmore⟩⟩
    · rw [read, repeatStep]
      simp only [readStep, unwrap_moved (unwrap_incomplete app hq.opened hincomplete),
        Window.compact_flip hq.writable, hfill]
    · rw [List.append_nil]
      exact hbefore
  · refine ⟨{ q with netIn := q.netIn.flip.compact }, ?_, .inr ⟨hsettled, hdone⟩⟩
    rw [read, repeatStep]
    simp only [readStep, unwrap_moved (unwrap_done app hsettled hdone)]

theorem read_close (sink : Sink ω) (hsize : 0 < size) (hq : q.Receives source size [0])
    {limit : Nat} (hlimit : 1 < limit) (app : Window) :
    ∃ p, q.read (ends source sink) limit app = (some (.ok none), p, app) ∧
      p.AtEnd source size := by
  have hshort : ∀ front : Bytes, front <+: [0] → front ≠ [0] → Incomplete front := by
    intro front hfront hne
    cases front with
    | nil => trivial
    | cons b bs =>
      obtain ⟨rfl, hbs⟩ := List.cons_prefix_cons.mp hfront
      exact absurd (congrArg _ (List.prefix_nil.mp hbs)) hne
  obtain ⟨p, left, hp, ⟨tail, htail⟩, hread⟩ := read_gathers sink hsize hshort
    hq hlimit app
  have hwhole : p.netIn.flip.span = 0 :: tail := htail.symm
  have hunwrap := unwrap_close app hp.opened hwhole
  refine ⟨{ p with engine := { p.engine with inboundDone := true },
                   netIn := (p.netIn.flip.skip 1).compact }, ?_, .inr ⟨hp.opened.settled, rfl⟩⟩
  rw [hread, read, repeatStep]
  simp only [readStep, unwrap_moved hunwrap]

/-! ## Many reads -/

/-- Reads into one cleared window after the other; each answer stands with its window. -/
def readEach {ε : Type} (d : Ends ι ω ε) (limit : Nat) :
    List Window → Pump ι ω ε → List (Option (Except Fault (Option Nat)) × Window) × Pump ι ω ε
  | [], q => ([], q)
  | app :: apps, q =>
    match q.read d limit app.clear with
    | (r, p, w) => ((r, w) :: (readEach d limit apps p).1, (readEach d limit apps p).2)

/-- What reads into cleared windows are to answer while the records of `fragments` come in
and then the end: each fragment in its turn, as soon as a window has room for it. -/
def handedOut : List Bytes → List Window → List (Option (Except Fault (Option Nat)) × Window)
  | _, [] => []
  | [], app :: apps => (some (.ok none), app.clear) :: handedOut [] apps
  | f :: fs, app :: apps =>
    if app.capacity < f.length then (some (.error noRoom), app.clear) :: handedOut (f :: fs) apps
    else (some (.ok (some f.length)), (app.clear.put f).flip) :: handedOut fs apps

theorem getElem?_handedOut {fragments : List Bytes} {apps : List Window}
    (h : ∀ f ∈ fragments, ∀ app ∈ apps, f.length ≤ app.capacity) (k : Nat)
    (hk : k < apps.length) :
    ∃ w, (handedOut fragments apps)[k]? = some (some (.ok (fragments[k]?.map List.length)), w) ∧
      ∀ f, fragments[k]? = some f → w.span = f := by
  induction apps generalizing fragments k with
  | nil => exact absurd hk (Nat.not_lt_zero k)
  | cons app apps ih =>
    cases fragments with
    | nil =>
      cases k with
      | zero => exact ⟨app.clear, rfl, nofun⟩
      | succ k => exact ih (fun f hf => absurd hf List.not_mem_nil) k (Nat.lt_of_succ_lt_succ hk)
    | cons f fs =>
      have hroom := h f List.mem_cons_self app List.mem_cons_self
      rw [handedOut, if_neg (Nat.not_lt.mpr hroom)]
      cases k with
      | zero =>
        refine ⟨_, rfl, fun g hg => ?_⟩
        obtain rfl : f = g := Option.some.inj hg
        exact Window.span_refilled hroom
      | succ k =>
        exact ih (fun g hg w hw => h g (List.mem_cons_of_mem _ hg) w (List.mem_cons_of_mem _ hw))
          k (Nat.lt_of_succ_lt_succ hk)

theorem readEach_atEnd (hsize : 0 < size) (hq : q.AtEnd source size) {limit : Nat}
    (hlimit : 0 < limit) (apps : List Window) :
    (readEach (ends source sink) limit apps q).1 = handedOut [] apps := by
  induction apps generalizing q with
  | nil => rfl
  | cons app apps ih =>
    obtain ⟨p, hread, hp⟩ := read_atEnd sink hsize hq hlimit app.clear
    simp only [readEach, hread, handedOut, ih hp]

/-- However the bytes arrive, the answers are determined by the fragments and the windows. -/
theorem readEach_eq {fragments : List Bytes} {ending : Bytes}
    (hpos : ∀ f ∈ fragments, 0 < f.length) (hle : ∀ f ∈ fragments, f.length ≤ maxPlaintext)
    (hfits : ∀ f ∈ fragments, f.length + 1 ≤ size) (hsize : 0 < size)
    (hending : ending = [] ∨ ending = [0])
    (hq : q.Receives source size (fragments.flatMap record ++ ending)) {limit : Nat}
    (hlimit : (fragments.flatMap record ++ ending).length < limit) (apps : List Window) :
    (readEach (ends source sink) limit apps q).1 = handedOut fragments apps := by
  induction apps generalizing q fragments with
  | nil => cases fragments <;> rfl
  | cons app apps ih =>
    cases fragments with
    | nil =>
      -- The first read at the end may have to take the close notification.
      have hfirst : ∃ p, q.read (ends source sink) limit app.clear =
          (some (.ok none), p, app.clear) ∧ p.AtEnd source size := by
        rcases hending with rfl | rfl
        · exact read_atEnd sink hsize (.inl hq) (Nat.zero_lt_of_lt hlimit) _
        · exact read_close sink hsize hq hlimit _
      obtain ⟨p, hread, hp⟩ := hfirst
      simp only [readEach, hread, handedOut,
        readEach_atEnd hsize hp (Nat.zero_lt_of_lt hlimit)]
    | cons f fs =>
      rw [List.flatMap_cons, List.append_assoc] at hq hlimit
      obtain ⟨p, hp⟩ := read_record sink (hpos f List.mem_cons_self)
        (hle f List.mem_cons_self) (hfits f List.mem_cons_self) hq hlimit app.clear
      rw [Window.remaining_clear] at hp
      rw [handedOut]
      by_cases hroom : app.capacity < f.length
      · rw [if_pos hroom] at hp ⊢
        obtain ⟨hread, hp⟩ := hp
        rw [readEach, hread]
        refine congrArg (List.cons _) (ih hpos hle hfits ?_ ?_)
        · rwa [List.flatMap_cons, List.append_assoc]
        · rwa [List.flatMap_cons, List.append_assoc]
      · rw [if_neg hroom] at hp ⊢
        obtain ⟨hread, hp⟩ := hp
        rw [readEach, hread]
        refine congrArg (List.cons _) (ih (fun g hg => hpos g (List.mem_cons_of_mem _ hg))
          (fun g hg => hle g (List.mem_cons_of_mem _ hg))
          (fun g hg => hfits g (List.mem_cons_of_mem _ hg)) hp ?_)
        rw [List.length_append] at hlimit
        omega

end Pump
end Record
end RemoteCall
