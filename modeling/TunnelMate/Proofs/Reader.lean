import TunnelMate.Lib.Framing
import TunnelMate.Reader

/-!
# The frame reader as a framing

What `tm_frame_reader_feed` takes off its buffer depends on the frame alone, so the reader is a
`Framing`: however the input is cut into chunks, the frames are those of the whole.
-/

namespace TunnelMate

open List

variable {buf rest data : Bytes} {f : Frame}

lemma getD_append_of_lt {k : ℕ} (h : k < buf.length) (ys : Bytes) :
    (buf ++ ys).getD k 0 = buf.getD k 0 := by
  simp [getD, getElem?_append_left h]

lemma rdU16_append (h : 2 ≤ buf.length) (ys : Bytes) : rdU16 (buf ++ ys) = rdU16 buf := by
  unfold rdU16
  rw [getD_append_of_lt (by omega), getD_append_of_lt (by omega)]

lemma rdU32_append (h : 4 ≤ buf.length) (ys : Bytes) : rdU32 (buf ++ ys) = rdU32 buf := by
  unfold rdU32
  rw [rdU16_append (by omega), drop_append_of_le_length (by omega),
    rdU16_append (by rw [length_drop]; omega)]

lemma rdU32_drop_append {k : ℕ} (h : k + 4 ≤ buf.length) (ys : Bytes) :
    rdU32 ((buf ++ ys).drop k) = rdU32 (buf.drop k) := by
  rw [drop_append_of_le_length (by omega), rdU32_append (by rw [length_drop]; omega)]

/-- What the reader has checked is enough for `tm_frame_make`. -/
lemma tmFrameMake_take {type : UInt8} {sid n : ℕ} (h : ¬ n > tmMaxFramePayload) :
    tmFrameMake type sid (buf.take n) =
      some { type := .ofByte type, streamId := sid, payload := buf.take n } := by
  refine if_neg ?_
  rw [length_take]
  omega

lemma tmFrameReaderNext_frame : tmFrameReaderNext buf = (rest, .frame f) ↔
    tmFrameHdrLen + rdU32 (buf.drop 2) ≤ buf.length ∧ buf.getD 0 0 = tmProtoVersion ∧
      rdU32 (buf.drop 2) ≤ tmMaxFramePayload ∧
      buf.drop (tmFrameHdrLen + rdU32 (buf.drop 2)) = rest ∧
      { type := .ofByte (buf.getD 1 0), streamId := rdU32 (buf.drop 6),
        payload := (buf.drop tmFrameHdrLen).take (rdU32 (buf.drop 2)) } = f := by
  unfold tmFrameReaderNext
  dsimp only
  split_ifs with h1 h2 h3 h4
  · simp only [Prod.mk.injEq, reduceCtorEq, and_false, false_iff]
    omega
  · simp only [Prod.mk.injEq, reduceCtorEq, and_false, false_iff]
    exact fun h => h2 h.2.1
  · simp only [Prod.mk.injEq, reduceCtorEq, and_false, false_iff]
    omega
  · simp only [Prod.mk.injEq, reduceCtorEq, and_false, false_iff]
    omega
  · rw [tmFrameMake_take h3]
    simp only [Option.elim_some, Prod.mk.injEq, Fed.frame.injEq]
    exact ⟨fun h => ⟨by omega, not_not.1 h2, by omega, h⟩, fun h => h.2.2.2⟩

lemma tmFrameReaderNext_none (h : tmFrameReaderNext buf = (rest, .none)) : buf = rest := by
  unfold tmFrameReaderNext at h
  dsimp only at h
  split_ifs at h with h1 h2 h3 h4
  case neg => simp [tmFrameMake_take h3] at h
  all_goals exact (Prod.mk.inj h).1

def nextFrame (buf : Bytes) : Option (Frame × Bytes) :=
  match tmFrameReaderNext buf with
  | (rest, .frame f) => some (f, rest)
  | _ => none

lemma nextFrame_eq_some : nextFrame buf = some (f, rest) ↔
    tmFrameReaderNext buf = (rest, .frame f) := by
  unfold nextFrame
  split
  · rename_i h
    rw [h]
    simp [and_comm]
  · rename_i h
    simp only [reduceCtorEq, false_iff]
    exact h rest f

lemma length_of_nextFrame (h : nextFrame buf = some (f, rest)) :
    rest.length + tmFrameHdrLen ≤ buf.length := by
  obtain ⟨hl, -, -, rfl, -⟩ := tmFrameReaderNext_frame.1 (nextFrame_eq_some.1 h)
  rw [length_drop]
  omega

lemma nextFrame_append (ys : Bytes) (h : nextFrame buf = some (f, rest)) :
    nextFrame (buf ++ ys) = some (f, rest ++ ys) := by
  obtain ⟨hl, h0, hm, rfl, rfl⟩ := tmFrameReaderNext_frame.1 (nextFrame_eq_some.1 h)
  have h10 : 10 ≤ buf.length := le_trans (Nat.le_add_right _ _) hl
  have h2 : rdU32 ((buf ++ ys).drop 2) = rdU32 (buf.drop 2) := rdU32_drop_append (by omega) ys
  rw [nextFrame_eq_some, tmFrameReaderNext_frame, h2, rdU32_drop_append (by omega),
    getD_append_of_lt (by omega), getD_append_of_lt (by omega), length_append]
  refine ⟨by omega, h0, hm, drop_append_of_le_length hl, ?_⟩
  have hd : (buf ++ ys).drop tmFrameHdrLen = buf.drop tmFrameHdrLen ++ ys :=
    drop_append_of_le_length h10
  rw [hd, take_append_of_le_length]
  rw [length_drop]
  omega

def framing : Framing UInt8 Frame where
  next := nextFrame
  shorter h := by
    have := length_of_nextFrame h
    simp only [tmFrameHdrLen] at this
    omega
  append := nextFrame_append

lemma feed_nil (buf : Bytes) : tmFrameReaderFeed buf [] = tmFrameReaderNext buf := by
  simp [tmFrameReaderFeed]

lemma feed_eq (h : (tmFrameReaderFeed buf data).2 ≠ .errored) :
    tmFrameReaderFeed buf data = tmFrameReaderNext (buf ++ data) := by
  unfold tmFrameReaderFeed at h ⊢
  split_ifs at h ⊢
  · exact absurd rfl h
  · rfl

end TunnelMate
