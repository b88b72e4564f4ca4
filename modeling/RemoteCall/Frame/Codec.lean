import RemoteCall.Frame.Body
import RemoteCall.Stream.Source
import RemoteCall.Stream.Sink

/-!
Framing: a version byte, the length of the body in four bytes, and the body.

A stream that ends before a version byte has ended cleanly; one that ends anywhere
else is truncated.  A body that is read but stands for no frame takes nothing more off
the stream, so the next frame can still be read.
-/

namespace RemoteCall

inductive CodecError where
  | fault (cause : Fault)
  | unsupportedVersion (version : UInt8)
  | frameTooLarge (size : Nat)
  | truncated
  | malformed (reason : String)
  deriving DecidableEq, Repr, Inhabited

namespace CodecError

def message : CodecError → String
  | fault cause => "frame I/O failed: " ++ cause.message
  | unsupportedVersion version =>
    "unsupported frame schema version " ++ toString version.toNat
  | frameTooLarge size => "frame body of " ++ toString size ++ " bytes exceeds the limit"
  | truncated => "the stream ended in the middle of a frame"
  | malformed reason => "malformed frame: " ++ reason

def label : CodecError → String
  | fault cause => "Codec." ++ cause.label
  | unsupportedVersion _ => "Codec.UnsupportedVersion"
  | frameTooLarge _ => "Codec.FrameTooLarge"
  | truncated => "Codec.Truncated"
  | malformed _ => "Codec.Malformed"

end CodecError

namespace Frame

/-- The version byte of every frame. -/
def version : UInt8 := 1

/-- The greatest body that is written or read. -/
def maxBody : Nat := 64 * 1024 * 1024

/-- What stands in front of a body of `size` bytes. -/
def header (size : Nat) : Bytes := version :: Bytes.writeLE 4 size

def framed (body : Bytes) : Bytes := header body.length ++ body

/-- What is said of bytes that are no packing of a frame. -/
def notPacked : String := "bitcode error"

def decodeCall (body : Bytes) : Except CodecError CallFrame :=
  match Body.readCall.complete body with
  | none => .error (.malformed notPacked)
  | some f =>
    match CallFrame.new f.interface f.method f.types f.arguments with
    | .error e => .error (.malformed e.message)
    | .ok c => .ok { c with flags := f.flags, userData := f.userData }

def decodeReturn (body : Bytes) : Except CodecError ReturnFrame :=
  match Body.readReturn.complete body with
  | none => .error (.malformed notPacked)
  | some r => .ok r

variable {σ : Type}

/-- Writes a framed body, its header first. -/
def writeBody (snk : Sink σ) (body : Bytes) (s : σ) : Except CodecError Unit × σ :=
  if maxBody < body.length then (.error (.frameTooLarge body.length), s)
  else
    match snk.writeAll (header body.length) s with
    | (.error e, t) => (.error (.fault e), t)
    | (.ok (), t) =>
      match snk.writeAll body t with
      | (.error e, u) => (.error (.fault e), u)
      | (.ok (), u) => (.ok (), u)

def writeCall (snk : Sink σ) (c : CallFrame) (s : σ) : Except CodecError Unit × σ :=
  writeBody snk (Body.writeCall c) s

def writeReturn (snk : Sink σ) (r : ReturnFrame) (s : σ) : Except CodecError Unit × σ :=
  writeBody snk (Body.writeReturn r) s

/-- Reads `n` bytes in the middle of a frame. -/
def readInside (src : Source σ) (n : Nat) (s : σ) : Except CodecError Bytes × σ :=
  match src.readExact n s with
  | (.error e, t) => (.error (if e.kind = .unexpectedEof then .truncated else .fault e), t)
  | (.ok bs, t) => (.ok bs, t)

/-- Reads the body of the next frame; `none` if the stream has ended in front of it. -/
def readBody (src : Source σ) (s : σ) : Except CodecError (Option Bytes) × σ :=
  match src.readSome 1 s with
  | (.error e, t) => (.error (.fault e), t)
  | (.ok [], t) => (.ok none, t)
  | (.ok (v :: _), t) =>
    if v ≠ version then (.error (.unsupportedVersion v), t)
    else
      match readInside src 4 t with
      | (.error e, u) => (.error e, u)
      | (.ok size, u) =>
        if maxBody < Bytes.readLE size then (.error (.frameTooLarge (Bytes.readLE size)), u)
        else
          match readInside src (Bytes.readLE size) u with
          | (.error e, w) => (.error e, w)
          | (.ok body, w) => (.ok (some body), w)

/-- Reads the next frame, given what its body stands for. -/
def readWith {α : Type} (decode : Bytes → Except CodecError α) (src : Source σ) (s : σ) :
    Except CodecError (Option α) × σ :=
  match readBody src s with
  | (.error e, t) => (.error e, t)
  | (.ok none, t) => (.ok none, t)
  | (.ok (some body), t) => (some <$> decode body, t)

def readCall (src : Source σ) (s : σ) : Except CodecError (Option CallFrame) × σ :=
  readWith decodeCall src s

def readReturn (src : Source σ) (s : σ) : Except CodecError (Option ReturnFrame) × σ :=
  readWith decodeReturn src s

/-- A frame that was read has used up some of the supply of its source. -/
theorem supply_readBody (src : Source σ) {s t : σ} {body : Bytes}
    (h : readBody src s = (.ok (some body), t)) : src.supply t < src.supply s := by
  unfold readBody at h
  split at h
  · simp at h
  · simp at h
  · next v vs s₁ h₁ =>
    split at h
    · simp at h
    · split at h
      · simp at h
      · next size s₂ h₂ =>
        split at h
        · simp at h
        · split at h
          · simp at h
          · next body' s₃ h₃ =>
            simp only [Prod.mk.injEq, Except.ok.injEq] at h
            obtain ⟨-, rfl⟩ := h
            unfold readInside at h₂ h₃
            split at h₂
            · simp at h₂
            · next h₂' =>
              split at h₃
              · simp at h₃
              · next h₃' =>
                simp only [Prod.mk.injEq] at h₂ h₃
                have e₁ := src.supply_readSome h₁
                have e₂ := src.supply_readExact h₂'
                have e₃ := src.supply_readExact h₃'
                rw [h₂.2] at e₂
                rw [h₃.2] at e₃
                simp only [List.length_cons] at e₁
                omega

theorem supply_readWith {α : Type} {decode : Bytes → Except CodecError α} (src : Source σ)
    {s t : σ} {a : α} (h : readWith decode src s = (.ok (some a), t)) :
    src.supply t < src.supply s := by
  unfold readWith at h
  split at h
  · simp at h
  · simp at h
  · next hb =>
    simp only [Prod.mk.injEq] at h
    exact h.2 ▸ supply_readBody src hb

end Frame

end RemoteCall
