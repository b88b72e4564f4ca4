import RemoteCall.Proofs.Record.Loops
import RemoteCall.Proofs.Record.Transparency

/-!
The closing exchange.

A side that closes drops what still comes in.  What is buffered begins with a close record,
with a whole record, or with the front of one; each round takes the first or the second, and
asks the socket for more only in the last case.  So the rounds are bounded by the bytes that
are buffered and twice those that are still to come, the socket is never asked once the
close record is there (`Pump.Drains`), and behind the last round nothing is buffered.  The
close record of this side goes out once, and no plaintext behind it.
-/

namespace RemoteCall
namespace Record
namespace LengthRecords

/-! ## Where a close record stands -/

/-- A close record stands behind whole records. -/
inductive HasClose : Bytes → Prop where
  | here (rest : Bytes) : HasClose (0 :: rest)
  | behind {f rest : Bytes} (hpos : 0 < f.length) (hle : f.length ≤ maxPlaintext)
      (h : HasClose rest) : HasClose (record f ++ rest)

theorem record_append_inj {f g rest more : Bytes} (hf : f.length ≤ maxPlaintext)
    (hg : g.length ≤ maxPlaintext) (h : record f ++ rest = record g ++ more) : rest = more := by
  obtain ⟨hlen, htail⟩ := List.cons.inj h
  have hlength : f.length = g.length := by
    rw [← toNat_ofNat_length hf, hlen, toNat_ofNat_length hg]
  exact (List.append_inj htail hlength).2

theorem hasClose_record {f rest : Bytes} (hpos : 0 < f.length) (hle : f.length ≤ maxPlaintext)
    (h : HasClose (record f ++ rest)) : HasClose rest := by
  generalize hbs : record f ++ rest = bs at h
  cases h with
  | here => exact absurd (List.cons.inj hbs).1 (ofNat_length_ne_zero hpos hle)
  | behind hpos' hle' h => exact record_append_inj hle hle' hbs ▸ h

theorem not_hasClose_of_incomplete {bs : Bytes} (h : Incomplete bs) : ¬ HasClose bs := by
  intro hclose
  cases hclose with
  | here => exact h.1 rfl
  | @behind f rest hpos hle =>
    have hlt : (f ++ rest).length < (UInt8.ofNat f.length).toNat := h.2
    rw [toNat_ofNat_length hle, List.length_append] at hlt
    omega

theorem Incomplete.length_le {bs : Bytes} (h : Incomplete bs) : bs.length ≤ maxPlaintext := by
  cases bs with
  | nil => exact Nat.zero_le _
  | cons len rest =>
    have hlen := len.toNat_lt
    rw [List.length_cons, maxPlaintext]
    have hlt := h.2
    omega

/-- How any bytes begin. -/
theorem incomplete_or (bs : Bytes) :
    Incomplete bs ∨ (∃ rest, bs = 0 :: rest) ∨
      ∃ f rest, 0 < f.length ∧ f.length ≤ maxPlaintext ∧ bs = record f ++ rest := by
  cases bs with
  | nil => exact .inl trivial
  | cons len rest =>
    by_cases hzero : len = 0
    · exact .inr (.inl ⟨rest, by rw [hzero]⟩)
    · rcases Nat.lt_or_ge rest.length len.toNat with hshort | hlong
      · exact .inl ⟨hzero, hshort⟩
      · have hlen := len.toNat_lt
        have hf : (rest.take len.toNat).length = len.toNat := by
          rw [List.length_take]
          omega
        refine .inr (.inr ⟨rest.take len.toNat, rest.drop len.toNat, ?_, ?_, ?_⟩)
        · rw [hf]
          exact Nat.pos_of_ne_zero fun h => hzero (UInt8.toNat_inj.mp h)
        · rw [hf, maxPlaintext]
          omega
        · rw [record, hf, UInt8.ofNat_toNat, List.cons_append, List.take_append_drop]

/-- Every one of the reads that gave `answers` was made while no close record was there,
`had` being there before them. -/
def Needed (had : Bytes) (answers : List (Except Fault Bytes)) : Prop :=
  ∀ front a back, answers = front ++ a :: back → ¬ HasClose (had ++ Source.brought front)

theorem Needed.nil (had : Bytes) : Needed had [] :=
  fun _ _ _ hsplit => absurd hsplit (by simp)

theorem Needed.append {had : Bytes} {answers more : List (Except Fault Bytes)}
    (h : Needed had answers) (h' : Needed (had ++ Source.brought answers) more) :
    Needed had (answers ++ more) := by
  intro front a back hsplit
  rcases List.append_eq_append_iff.mp hsplit with ⟨later, rfl, hmore⟩ | ⟨rest, rfl, hrest⟩
  · have hnone := h' later a back hmore
    rwa [List.append_assoc, ← Source.brought_append] at hnone
  · cases rest with
    | nil =>
      have hnone := h' [] a back hrest.symm
      rwa [List.append_nil, Source.brought_nil, List.append_nil] at hnone
    | cons b rest =>
      obtain ⟨rfl, -⟩ := List.cons.inj hrest
      exact h front a rest rfl

theorem Needed.read {had : Bytes} {waits : List (Except Fault Bytes)} {last : Except Fault Bytes}
    (h : ¬ HasClose had) (hwaits : Source.brought waits = []) :
    Needed had (waits ++ [last]) := by
  intro front a back hsplit
  have hnothing : Source.brought front = [] := by
    rcases List.eq_nil_or_concat back with rfl | ⟨back, b, rfl⟩
    · rw [← (List.append_inj' hsplit rfl).1]
      exact hwaits
    · rw [List.concat_eq_append, ← List.cons_append, ← List.append_assoc] at hsplit
      rw [(List.append_inj' hsplit rfl).1, Source.brought_append] at hwaits
      exact (List.append_eq_nil_iff.mp hwaits).1
  rwa [hnothing, List.append_nil]

end LengthRecords

namespace Pump

open LengthRecords

/-! ## One round -/

section

variable {ι ω : Type} {source : Source ι} {sink : Sink ω} {p : Pump ι ω LengthRecords}

theorem before_skip_record {w : Window} {f rest : Bytes} (h : w.before = record f ++ rest) :
    (w.flip.skip (f.length + 1)).compact.before = rest := by
  show w.before.drop (record f).length = rest
  rw [h, List.drop_left]

theorem readClosingStep_done (hdone : p.engine.inboundDone = true) (drop : Window) :
    readClosingStep (ends source sink) (p, drop) = (.stop (.ok ()), p, drop) := if_pos hdone

theorem not_inboundDone (he : p.engine.InboundOpen) :
    ¬ (ends source sink).engine.inboundDone p.engine = true := by
  rw [show (ends source sink).engine.inboundDone p.engine = false from he.notDone]
  exact Bool.false_ne_true

theorem readClosingStep_incomplete (source : Source ι) (sink : Sink ω)
    (he : p.engine.InboundOpen) (hwritable : p.netIn.after = [])
    (h : Incomplete p.netIn.before) (drop : Window) :
    readClosingStep (ends source sink) (p, drop) =
      ((p.fillOn (ends source sink) (.ok ())).1, (p.fillOn (ends source sink) (.ok ())).2,
        drop.clear) := by
  have hunwrap : p.unwrap (ends source sink) drop.clear = _ :=
    unwrap_moved (unwrap_incomplete drop.clear he h)
  rw [Window.compact_flip hwritable] at hunwrap
  rw [readClosingStep, if_neg (not_inboundDone he), hunwrap]

theorem readClosingStep_close (source : Source ι) (sink : Sink ω)
    {rest : Bytes} (he : p.engine.InboundOpen)
    (h : p.netIn.before = 0 :: rest) (drop : Window) :
    readClosingStep (ends source sink) (p, drop) =
      (.stop (.ok ()), { p with
        engine := { p.engine with inboundDone := true }
        netIn := (p.netIn.flip.skip 1).compact }, drop.clear) := by
  have hunwrap : p.unwrap (ends source sink) drop.clear = _ :=
    unwrap_moved (unwrap_close drop.clear he h)
  rw [readClosingStep, if_neg (not_inboundDone he), hunwrap]

theorem readClosingStep_record (source : Source ι) (sink : Sink ω)
    {f rest : Bytes} (he : p.engine.InboundOpen)
    (hpos : 0 < f.length) (hle : f.length ≤ maxPlaintext) (h : p.netIn.before = record f ++ rest)
    {drop : Window} (hdrop : maxPlaintext ≤ drop.capacity) :
    readClosingStep (ends source sink) (p, drop) =
      (.again, { p with netIn := (p.netIn.flip.skip (f.length + 1)).compact },
        drop.clear.put f) := by
  have hunwrap : p.engine.unwrap p.netIn.flip drop.clear = _ :=
    unwrap_record drop.clear he hpos hle h
  have hroom : ¬ drop.clear.remaining < f.length := by
    rw [Window.remaining_clear]
    omega
  rw [if_neg hroom] at hunwrap
  have hpump : p.unwrap (ends source sink) drop.clear = _ := unwrap_moved hunwrap
  rw [readClosingStep, if_neg (not_inboundDone he), hpump]

end

/-! ## All rounds -/

/-- A pump of length records whose source keeps a log. -/
abbrev Tapped (ι ω : Type) := Pump (ι × List (Except Fault Bytes)) ω LengthRecords

/-- From `p` to `q` reads were made that gave `answers`, and `left` is still to come.  Each of
the reads was needed, and they went on until the inbound side was closed or the stream ended. -/
structure Drains {ι ω : Type} (source : Source ι) (answers : List (Except Fault Bytes))
    (left : Bytes) (p q : Tapped ι ω) : Prop where
  log : q.input.2 = p.input.2 ++ answers
  delivers : source.Delivers q.input.1 left
  idle : p.engine.inboundDone = true → answers = []
  needed : Needed p.netIn.before answers
  ended : p.engine.inboundDone = true ∨ HasClose (p.netIn.before ++ Source.brought answers) ∨
    left = []
  writable : q.netIn.after = []
  room : q.netIn.capacity = p.netIn.capacity
  engine : ∃ done, q.engine = { p.engine with inboundDone := done }
  output : q.output = p.output
  netOut : q.netOut = p.netOut

variable {ι ω : Type} {source : Source ι} {sink : Sink ω} {p q : Tapped ι ω} {left : Bytes}
  {answers : List (Except Fault Bytes)}

theorem Drains.after_record {w : Window} {f : Bytes} (hpos : 0 < f.length)
    (hle : f.length ≤ maxPlaintext) (hbefore : p.netIn.before = record f ++ w.before)
    (hroom : w.capacity = p.netIn.capacity)
    (h : Drains source answers left { p with netIn := w } q) : Drains source answers left p q where
  log := h.log
  delivers := h.delivers
  idle := h.idle
  needed front a back hsplit hclose := by
    rw [hbefore, List.append_assoc] at hclose
    exact h.needed front a back hsplit (hasClose_record hpos hle hclose)
  ended := by
    refine h.ended.imp_right (Or.imp_left fun hclose => ?_)
    rw [hbefore, List.append_assoc]
    exact .behind hpos hle hclose
  writable := h.writable
  room := h.room.trans hroom
  engine := h.engine
  output := h.output
  netOut := h.netOut

theorem Drains.after_read {i : ι × List (Except Fault Bytes)} {w : Window}
    {waits : List (Except Fault Bytes)} {came : Bytes} (hopen : p.engine.inboundDone = false)
    (hnone : ¬ HasClose p.netIn.before)
    (hlog : i.2 = p.input.2 ++ (waits ++ [.ok came])) (hwaits : Source.brought waits = [])
    (hbefore : w.before = p.netIn.before ++ came) (hroom : w.capacity = p.netIn.capacity)
    (h : Drains source answers left { p with input := i, netIn := w } q) :
    Drains source (waits ++ [.ok came] ++ answers) left p q := by
  have hcame := Source.brought_read hwaits came
  have hneeded := h.needed
  have hended := h.ended
  dsimp only at hneeded hended
  rw [hbefore] at hneeded hended
  refine ⟨?_, h.delivers, ?_, ?_, ?_, h.writable, h.room.trans hroom, h.engine, h.output,
    h.netOut⟩
  · rw [h.log, ← List.append_assoc, ← hlog]
  · rw [hopen]
    exact fun hdone => absurd hdone Bool.false_ne_true
  · refine (Needed.read hnone hwaits).append ?_
    rw [hcame]
    exact hneeded
  · rw [Source.brought_append, hcame, ← List.append_assoc]
    exact hended

/-- From `p` the loop comes to its end, while `rest` is still to come. -/
def Concludes (source : Source ι) (sink : Sink ω) (rest : Bytes) (p : Tapped ι ω)
    (drop : Window) : Prop :=
  ∃ n q drop' answers left, n ≤ p.netIn.before.length + 2 * rest.length ∧
    Loops (readClosingStep (ends source.traced sink)) (p, drop) n (.ok ()) (q, drop') ∧
    rest = Source.brought answers ++ left ∧ Drains source answers left p q

variable {rest more came : Bytes} {drop : Window} {i : ι × List (Except Fault Bytes)}

theorem Concludes.closed (hdone : p.engine.inboundDone = true) (hwritable : p.netIn.after = [])
    (hrest : source.Delivers p.input.1 rest) : Concludes source sink rest p drop :=
  ⟨0, p, drop, [], rest, Nat.zero_le _, .stop (readClosingStep_done hdone drop), rfl,
    (List.append_nil _).symm, hrest, fun _ => rfl, .nil _, .inl hdone, hwritable, rfl,
    ⟨p.engine.inboundDone, rfl⟩, rfl, rfl⟩

theorem Concludes.at_close {tail : Bytes} (he : p.engine.InboundOpen)
    (hclose : p.netIn.before = 0 :: tail) (hrest : source.Delivers p.input.1 rest) :
    Concludes source sink rest p drop := by
  have hstep := readClosingStep_close source.traced sink he hclose drop
  refine ⟨0, _, _, [], rest, Nat.zero_le _, .stop hstep, rfl,
    ⟨(List.append_nil _).symm, hrest, fun _ => rfl, .nil _, .inr (.inl ?_), rfl, by simp,
      ⟨true, rfl⟩, rfl, rfl⟩⟩
  rw [hclose]
  exact .here _

theorem Concludes.at_end (he : p.engine.InboundOpen) (hwritable : p.netIn.after = [])
    (hshort : Incomplete p.netIn.before)
    (hread : source.traced.readSome p.netIn.remaining p.input = (.ok [], i))
    (hend : source.Delivers i.1 [])
    (hfill : p.fillOn (ends source.traced sink) (.ok ()) = (.stop (.ok ()), { p with input := i })) :
    Concludes source sink [] p drop := by
  have hstep := readClosingStep_incomplete source.traced sink he hwritable hshort drop
  rw [hfill] at hstep
  obtain ⟨waits, hlog, hwaits⟩ := Source.traced_readSome hread
  refine ⟨0, _, _, waits ++ [.ok []], [], Nat.zero_le _, .stop hstep, ?_, ⟨hlog, hend, ?_,
    .read (not_hasClose_of_incomplete hshort) hwaits, .inr (.inr rfl), hwritable, rfl,
    ⟨p.engine.inboundDone, rfl⟩, rfl, rfl⟩⟩
  · rw [Source.brought_read hwaits, List.append_nil]
  · rw [he.notDone]
    exact fun hdone => absurd hdone Bool.false_ne_true

theorem Concludes.after_read (he : p.engine.InboundOpen) (hwritable : p.netIn.after = [])
    (hshort : Incomplete p.netIn.before) (hsome : came ≠ [])
    (hread : source.traced.readSome p.netIn.remaining p.input = (.ok came, i))
    (hfill : p.fillOn (ends source.traced sink) (.ok ()) =
      (.again, { p with input := i, netIn := p.netIn.put came }))
    (h : Concludes source sink more { p with input := i, netIn := p.netIn.put came } drop.clear) :
    Concludes source sink (came ++ more) p drop := by
  have hstep := readClosingStep_incomplete source.traced sink he hwritable hshort drop
  rw [hfill] at hstep
  obtain ⟨waits, hlog, hwaits⟩ := Source.traced_readSome hread
  have hbefore := Window.before_put (source.traced.length_readSome_le hread)
  obtain ⟨n, q, drop', answers, left, hn, hloops, rfl, hq⟩ := h
  refine ⟨n + 1, q, drop', _, left, ?_, .again hstep hloops, ?_,
    hq.after_read he.notDone (not_hasClose_of_incomplete hshort) hlog hwaits hbefore
      (Window.capacity_put _ _)⟩
  · have hpos := List.length_pos_iff.mpr hsome
    rw [hbefore, List.length_append] at hn
    rw [List.length_append]
    omega
  · rw [Source.brought_append, Source.brought_read hwaits, List.append_assoc]

theorem Concludes.after_record {f tail : Bytes} (he : p.engine.InboundOpen) (hpos : 0 < f.length)
    (hle : f.length ≤ maxPlaintext) (hrecord : p.netIn.before = record f ++ tail)
    (hdrop : maxPlaintext ≤ drop.capacity)
    (h : Concludes source sink rest
      { p with netIn := (p.netIn.flip.skip (f.length + 1)).compact } (drop.clear.put f)) :
    Concludes source sink rest p drop := by
  have hstep := readClosingStep_record source.traced sink he hpos hle hrecord hdrop
  have hbefore := before_skip_record hrecord
  obtain ⟨n, q, drop', answers, left, hn, hloops, hanswers, hq⟩ := h
  refine ⟨n + 1, q, drop', answers, left, ?_, .again hstep hloops, hanswers,
    hq.after_record hpos hle (hrecord.trans (congrArg _ hbefore.symm)) (by simp)⟩
  rw [hbefore] at hn
  rw [hrecord, List.length_append, record, List.length_cons]
  omega

/-- By induction on what is buffered and twice what is still to come. -/
theorem concludes (sink : Sink ω) (he : p.engine.InboundOpen) (hwritable : p.netIn.after = [])
    (hsize : maxPlaintext < p.netIn.capacity) (hdrop : maxPlaintext ≤ drop.capacity)
    (hrest : source.Delivers p.input.1 rest) : Concludes source sink rest p drop := by
  generalize hm : p.netIn.before.length + 2 * rest.length = m
  induction m using Nat.strongRecOn generalizing p drop rest with
  | ind m ih =>
    rcases incomplete_or p.netIn.before with hshort | ⟨tail, hclose⟩ | ⟨f, tail, hpos, hle, hrecord⟩
    · have hroom : 0 < p.netIn.remaining := by
        have hlength := hshort.length_le
        rw [Window.capacity, hwritable, List.length_nil] at hsize
        rw [Window.remaining]
        omega
      rcases fillOn_delivers (d := ends source.traced sink) (.ok ()) hroom
        (Source.traced_delivers.mpr hrest) with
        ⟨rfl, i, hi, hread, hfill⟩ | ⟨came, more, i, hsome, rfl, hi, hread, hfill⟩
      · exact .at_end he hwritable hshort hread (Source.traced_delivers.mp hi) hfill
      · have hless : (p.netIn.put came).before.length + 2 * more.length < m := by
          have hpos := List.length_pos_iff.mpr hsome
          rw [List.length_append] at hm
          rw [Window.before_put (source.traced.length_readSome_le hread), List.length_append]
          omega
        refine .after_read he hwritable hshort hsome hread hfill (ih _ hless ?_ ?_ ?_ ?_ ?_ rfl)
        · exact he
        · exact hwritable
        · exact (Window.capacity_put _ _).symm ▸ hsize
        · exact (Window.capacity_clear _).symm ▸ hdrop
        · exact Source.traced_delivers.mp hi
    · exact .at_close he hclose hrest
    · have hless : (p.netIn.flip.skip (f.length + 1)).compact.before.length + 2 * rest.length
          < m := by
        rw [hrecord, List.length_append, record, List.length_cons] at hm
        rw [before_skip_record hrecord]
        omega
      refine .after_record he hpos hle hrecord hdrop (ih _ hless ?_ ?_ ?_ ?_ ?_ rfl)
      · exact he
      · exact rfl
      · simpa using hsize
      · simpa using hdrop
      · exact hrest

/-! ## Behind the exchange -/

section

variable {ι ω : Type} {source : Source ι} {sink : Sink ω} {p : Pump ι ω LengthRecords}

theorem read_closed (hsettled : p.engine.handshake ≠ .needUnwrap)
    (hdone : p.engine.inboundDone = true) (hwritable : p.netIn.after = []) {limit : Nat}
    (hlimit : 0 < limit) (app : Window) :
    p.read (ends source sink) limit app = (some (.ok none), p, app) := by
  obtain ⟨limit, rfl⟩ := Nat.exists_eq_add_of_le' hlimit
  have hunwrap : p.unwrap (ends source sink) app = _ := unwrap_moved (unwrap_done app hsettled hdone)
  rw [Window.compact_flip hwritable] at hunwrap
  rw [read, repeatStep]
  simp only [readStep, hunwrap]

theorem write_closed (hsettled : p.engine.handshake ≠ .needWrap)
    (hclosing : p.engine.closing = true) (hsent : p.engine.closeSent = true)
    (hclear : p.netOut.clear = p.netOut) {limit : Nat} (hlimit : 0 < limit) {app : Window}
    (happ : 0 < app.remaining) :
    p.write (ends source sink) limit app =
      (some (.error ⟨.brokenPipe, "TLS engine is closed for writing"⟩), p, app) := by
  obtain ⟨limit, rfl⟩ := Nat.exists_eq_add_of_le' hlimit
  have hwrap : LengthRecords.wrap app p.netOut.clear p.engine =
      moved .closed 0 0 app p.netOut p.engine := by
    rw [LengthRecords.wrap, if_neg hsettled, if_pos hclosing, if_pos hsent, hclear]
  have hleft : ¬ (app.remaining = 0 ∧
      (ends source sink).engine.handshake p.engine ≠ .needWrap) := by omega
  rw [write, repeatStep, writeStep, if_neg hleft]
  simp only [wrap_moved hwrap, if_true]
  rfl

theorem writeClosing_closed (hclosing : p.engine.closing = true)
    (hsent : p.engine.closeSent = true) (hclear : p.netOut.clear = p.netOut) {limit : Nat}
    (hlimit : 0 < limit) : p.writeClosing (ends source sink) limit = (some (.ok ()), p) := by
  obtain ⟨limit, rfl⟩ := Nat.exists_eq_add_of_le' hlimit
  have hsame : { p with engine := (ends source sink).engine.closeOutbound p.engine } = p := by
    show { p with engine := { p.engine with closing := true } } = p
    rw [← hclosing]
  have hstep : writeClosingStep (ends source sink) p = (.stop (.ok ()), p) := if_pos hsent
  rw [writeClosing, hsame, repeatStep, hstep]
  show (_, { p with netOut := p.netOut.clear }) = _
  rw [hclear]

/-- A pump that is past its handshake and has room for any record and its plaintext.  It may
hold ciphertext, and either side of it may be closed already. -/
structure PastHandshake (p : Pump ι ω LengthRecords) : Prop where
  readable : p.engine.handshake ≠ .needUnwrap
  sendable : p.engine.handshake ≠ .needWrap
  writable : p.netIn.after = []
  plainRoom : maxPlaintext ≤ p.engine.plaintextSize
  inRoom : maxPlaintext < p.netIn.capacity
  outRoom : maxPlaintext < p.netOut.capacity

theorem Greeted.pastHandshake {size : Nat} (h : Greeted source sink size p)
    (hsize : maxPlaintext < size) (hplain : maxPlaintext ≤ p.engine.plaintextSize) :
    p.PastHandshake := by
  obtain ⟨hout, hin, houtRoom, hwritable, hinRoom⟩ := h.settled
  exact ⟨hin.settled, hout.settled, hwritable, hplain, hinRoom ▸ hsize, houtRoom ▸ hsize⟩

end

theorem exists_readClosing_drains (sink : Sink ω) (hp : p.PastHandshake) {rest : Bytes}
    (hrest : source.Delivers p.input.1 rest) :
    ∃ q answers left, rest = Source.brought answers ++ left ∧ Drains source answers left p q ∧
      ∀ limit, p.netIn.before.length + 2 * rest.length < limit →
        p.readClosing (ends source.traced sink) limit = (some (.ok ()),
          { q with engine := { q.engine with inboundDone := true }, netIn := q.netIn.clear }) := by
  have hdrop : maxPlaintext ≤ (Window.new p.engine.plaintextSize).capacity := by
    rw [Window.capacity_new]
    exact hp.plainRoom
  have hconcludes : Concludes source sink rest p (.new p.engine.plaintextSize) := by
    by_cases hdone : p.engine.inboundDone = true
    · exact .closed hdone hp.writable hrest
    · exact concludes sink ⟨hp.readable, Bool.eq_false_iff.mpr hdone⟩ hp.writable hp.inRoom hdrop
        hrest
  obtain ⟨n, q, drop, answers, left, hn, hloops, hanswers, hq⟩ := hconcludes
  refine ⟨q, answers, left, hanswers, hq, fun limit hlimit => ?_⟩
  have hloop : repeatStep (readClosingStep (ends source.traced sink)) limit
      (p, .new ((ends source.traced sink).engine.plaintextSize p.engine)) =
      (some (.ok ()), q, drop) := hloops.repeatStep_eq (Nat.lt_of_le_of_lt hn hlimit)
  rw [readClosing, hloop]
  rfl

/-- The closing exchange comes to an end on both sides, in either order.

Waiting for the close record of the peer drops what still comes in, whatever it is, and stops
where the close record stands or the stream ends.  No read is made once the close record is
there, and none by any later read of plaintext.  The close record of this side is sent but
once, and no plaintext is sent behind it. -/
theorem closing_exchange_ends (source : Source ι) (sink : Sink ω) (hp : p.PastHandshake) :
    let d := ends source.traced sink
    (∀ rest, source.Delivers p.input.1 rest → ∃ q answers left,
      (∀ limit, p.netIn.before.length + 2 * rest.length < limit →
        p.readClosing d limit = (some (.ok ()), q)) ∧
      q.input.2 = p.input.2 ++ answers ∧ rest = Source.brought answers ++ left ∧
      source.Delivers q.input.1 left ∧
      (p.engine.inboundDone = true → answers = []) ∧
      (∀ front a back, answers = front ++ a :: back →
        ¬ HasClose (p.netIn.before ++ Source.brought front)) ∧
      (p.engine.inboundDone = true ∨ HasClose (p.netIn.before ++ Source.brought answers) ∨
        left = []) ∧
      q.engine.inboundDone = true ∧ q.bufferedCiphertext = 0 ∧
      q.PastHandshake ∧ q.output = p.output ∧
      ∀ limit app, 0 < limit → q.read d limit app = (some (.ok none), q, app)) ∧
    ∀ taken : ω → Bytes, sink.Accepts taken p.output → ∃ q,
      (∀ limit, 2 ≤ limit → p.writeClosing d limit = (some (.ok ()), q)) ∧
      taken q.output = taken p.output ++ (if p.engine.closeSent then [] else [0]) ∧
      sink.Accepts taken q.output ∧ q.PastHandshake ∧ q.input = p.input ∧
      (∀ limit, 0 < limit → q.writeClosing d limit = (some (.ok ()), q)) ∧
      ∀ limit app, 0 < limit → 0 < app.remaining → q.write d limit app =
        (some (.error ⟨.brokenPipe, "TLS engine is closed for writing"⟩), q, app) := by
  intro d
  constructor
  · intro rest hrest
    obtain ⟨q, answers, left, hanswers, hq, hclosing⟩ := exists_readClosing_drains sink hp hrest
    obtain ⟨done, hengine⟩ := hq.engine
    rw [hengine] at hclosing
    refine ⟨_, answers, left, hclosing, hq.log, hanswers, hq.delivers, hq.idle, hq.needed, hq.ended,
      rfl, rfl, ⟨hp.readable, hp.sendable, rfl, hp.plainRoom, ?_, ?_⟩, hq.output, ?_⟩
    · rw [Window.capacity_clear, hq.room]
      exact hp.inRoom
    · rw [hq.netOut]
      exact hp.outRoom
    · intro limit app hlimit
      refine read_closed ?_ rfl rfl hlimit app
      exact hp.readable
  · intro taken haccepts
    obtain ⟨o, w, hclear, hw, ho, htaken, hclosing⟩ := writeClosing_once source.traced hp.sendable
      (Nat.zero_lt_of_lt hp.outRoom) haccepts
    refine ⟨_, hclosing, htaken, ho, ⟨hp.readable, hp.sendable, hp.writable, hp.plainRoom,
      hp.inRoom, hw ▸ hp.outRoom⟩, rfl, ?_, ?_⟩
    · intro limit hlimit
      exact writeClosing_closed rfl rfl hclear hlimit
    · intro limit app hlimit happ
      refine write_closed ?_ rfl rfl hclear hlimit happ
      exact hp.sendable

/-- A handshake leaves the front of a record in the buffer.  Its rest comes with a close record
and a byte behind it, and the chunk after that is never read.  Then this side closes. -/
theorem closing_exchange_ends_behind_handshake :
    let d := ends Script.source.traced Script.sink
    let fresh : Tapped (List Script.Arrival) Script.Uptake :=
      new d ([.chunk [0x68, 0x69, 2, 7], .fault ⟨.interrupted, "again"⟩, .chunk [9, 0, 1],
        .chunk [5]], []) .empty (.new [.needUnwrap] 255 256)
    let p := (fresh.handshake d 4).2
    p.PastHandshake ∧ p.netIn.before = [2, 7] ∧
    ∃ q r, p.readClosing d 11 = (some (.ok ()), q) ∧ q.input.1 = [.chunk [5]] ∧
      q.read d 1 (.new 8) = (some (.ok none), q, .new 8) ∧
      q.writeClosing d 2 = (some (.ok ()), r) ∧ r.output.taken = [0] ∧
      r.writeClosing d 1 = (some (.ok ()), r) ∧
      r.write d 1 ⟨[], [1], []⟩ =
        (some (.error ⟨.brokenPipe, "TLS engine is closed for writing"⟩), r, ⟨[], [1], []⟩) := by
  intro d fresh p
  have hdone : (fresh.handshake d 4).1 = some (.ok ()) := by
    have hanswer : (fresh.handshake d 4).1.bind Except.toOption = some () := by decide +kernel
    generalize (fresh.handshake d 4).1 = result at hanswer ⊢
    match result, hanswer with
    | some (.ok ()), _ => rfl
  have hgreeted : Greeted Script.source.traced Script.sink 256 p :=
    ⟨_, _, _, _, _, hdone, rfl⟩
  have hplain : maxPlaintext ≤ p.engine.plaintextSize := by decide +kernel
  have hp : p.PastHandshake := hgreeted.pastHandshake (by decide) hplain
  have hbefore : p.netIn.before = [2, 7] := by decide +kernel
  have hinput : p.input.1 = [.fault ⟨.interrupted, "again"⟩, .chunk [9, 0, 1], .chunk [5]] := by
    decide +kernel
  have hdelivers : Script.source.Delivers p.input.1 [9, 0, 1, 5] := by
    rw [hinput]
    exact Script.source_delivers (by simp [Script.Clean])
  have hplainly : p.output.answers.length = 0 ∧ p.output.flushAnswers.length = 0 ∧
      p.output.taken = [] := by decide +kernel
  have haccepts : Script.sink.Accepts Script.Uptake.taken p.output := by
    refine Script.sink_accepts ⟨?_, ?_⟩
    · rw [List.length_eq_zero_iff.mp hplainly.1]
      exact fun _ ha => absurd ha List.not_mem_nil
    · rw [List.length_eq_zero_iff.mp hplainly.2.1]
      exact fun _ ha => absurd ha List.not_mem_nil
  have hunread : (p.readClosing d 11).2.input.1 = [.chunk [5]] := by decide +kernel
  have hunsent : (p.readClosing d 11).2.engine.closeSent = false := by decide +kernel
  clear_value p
  obtain ⟨q, -, -, hreads, -, -, -, -, -, -, -, -, hq, houtput, hlater⟩ :=
    (closing_exchange_ends Script.source Script.sink hp).1 _ hdelivers
  have hread := hreads 11 (by rw [hbefore]; decide)
  rw [hread] at hunread hunsent
  rw [← houtput] at haccepts
  obtain ⟨r, hcloses, htaken, -, -, -, hagain, hwrites⟩ :=
    (closing_exchange_ends Script.source Script.sink hq).2 Script.Uptake.taken haccepts
  refine ⟨hp, hbefore, q, r, hread, hunread, hlater 1 _ Nat.one_pos, hcloses 2 (Nat.le_refl 2), ?_,
    hagain 1 Nat.one_pos, hwrites 1 _ Nat.one_pos (by decide)⟩
  rw [htaken, houtput, hplainly.2.2, if_neg (by rw [hunsent]; exact Bool.false_ne_true)]
  rfl

end Pump
end Record
end RemoteCall
