import Mathlib.Data.List.Forall2
import TunnelMate.Proofs.Cred
import TunnelMate.Proofs.Reader

/-!
# Frames through the reader

The loop that feeds chunks and takes out frames has, as long as no error is reported, the frames of
everything it was fed: how that was cut makes no difference (`decode_chunks`).
-/

namespace TunnelMate

open List Option Nat Framing

variable {buf x y : Bytes} {f : Frame} {e : Bytes} {r : List Frame × Bytes}

/-! ## The loop -/

variable {n m : ℕ} {cs bs : List Bytes} {c x : Bytes}

lemma takeFrames_eq (hn : x.length ≤ n)
    (h : takeFrames n (tmFrameReaderNext x) = some r) : r = framing.all x := by
  induction x using all.induct (F := framing) generalizing n r with
  | case1 x hnone =>
    rcases hx : tmFrameReaderNext x with ⟨rest, _ | _ | f⟩
    · obtain rfl := tmFrameReaderNext_none hx
      rw [hx, takeFrames] at h
      cases h
      exact (all_none hnone).symm
    · rw [hx, takeFrames] at h
      cases h
    · cases hnone.symm.trans (nextFrame_eq_some.2 hx)
  | case2 x f rest hf ih =>
    have hlt := framing.shorter hf
    obtain ⟨m, rfl⟩ : ∃ m, n = m + 1 := ⟨n - 1, by omega⟩
    rw [nextFrame_eq_some.1 hf, takeFrames, feed_nil, map_eq_some_iff] at h
    obtain ⟨q, hq, rfl⟩ := h
    rw [all_some hf, ← ih (by omega) hq]

lemma feedChunks_eq (h : feedChunks buf cs = some r)
    (hb : framing.all buf = ([], buf)) : r = framing.all (buf ++ cs.flatten) := by
  induction cs generalizing buf r with
  | nil =>
    cases h
    rw [flatten_nil, append_nil, hb]
  | cons c cs ih =>
    rw [feedChunks, bind_eq_some_iff] at h
    obtain ⟨q, hq, h⟩ := h
    obtain ⟨q', hq', rfl⟩ := map_eq_some_iff.1 h
    have hne : (tmFrameReaderFeed buf c).2 ≠ .errored := by
      intro he
      rw [← Prod.eta (tmFrameReaderFeed buf c), he, takeFrames] at hq
      cases hq
    rw [feed_eq hne] at hq
    have hall := takeFrames_eq (x := buf ++ c) (length_append ▸ le_rfl) hq
    have hleft : framing.all q.2 = ([], q.2) := hall ▸ all_left (buf ++ c)
    rw [ih hq' hleft, flatten_cons, ← append_assoc, all_append (buf ++ c), ← hall]

lemma feedChunks_append (cs cs' : List Bytes) : feedChunks buf (cs ++ cs') =
    (feedChunks buf cs).bind fun r => (feedChunks r.2 cs').map fun q => (r.1 ++ q.1, q.2) := by
  induction cs generalizing buf with
  | nil =>
    rw [nil_append, feedChunks, bind_some]
    cases feedChunks buf cs' <;> rfl
  | cons c cs ih =>
    rw [cons_append, feedChunks, feedChunks]
    cases takeFrames (buf.length + c.length) (tmFrameReaderFeed buf c) with
    | none => rfl
    | some r =>
      rw [bind_some, bind_some, ih]
      cases feedChunks r.2 cs with
      | none => rfl
      | some q => cases h : feedChunks q.2 cs' <;> simp [h]

/-! ## Encoded frames -/

def Frame.Fits (f : Frame) : Prop := .ofByte f.type.toByte = f.type ∧ f.streamId < 2 ^ 32

instance (f : Frame) : Decidable f.Fits := inferInstanceAs (Decidable (_ ∧ _))

lemma length_wrU32 (n : ℕ) : (wrU32 n).length = 4 := rfl

section

variable (h : tmFrameEncode f = some e)
include h

lemma length_tmFrameEncode : e.length = tmFrameHdrLen + f.payload.length := by
  unfold tmFrameEncode at h
  split_ifs at h
  cases h
  simp only [length_append, length_wrU32, length_cons, length_nil, tmFrameHdrLen]

lemma encode_header (ys : Bytes) :
    (e ++ ys).getD 0 0 = tmProtoVersion ∧ (e ++ ys).getD 1 0 = f.type.toByte ∧
      rdU32 ((e ++ ys).drop 2) = f.payload.length ∧ rdU32 ((e ++ ys).drop 6) = f.streamId % 2 ^ 32 ∧
      (e ++ ys).drop tmFrameHdrLen = f.payload ++ ys ∧ f.payload.length ≤ tmMaxFramePayload := by
  unfold tmFrameEncode at h
  split_ifs at h with hl
  cases h
  have h2 : ([tmProtoVersion, f.type.toByte] ++ wrU32 f.payload.length ++ wrU32 f.streamId ++
      f.payload ++ ys).drop 2 = wrU32 f.payload.length ++ (wrU32 f.streamId ++ (f.payload ++ ys)) :=
    rfl
  have h6 : ([tmProtoVersion, f.type.toByte] ++ wrU32 f.payload.length ++ wrU32 f.streamId ++
      f.payload ++ ys).drop 6 = wrU32 f.streamId ++ (f.payload ++ ys) := rfl
  have hmax : tmMaxFramePayload < 2 ^ 32 := by decide
  refine ⟨rfl, rfl, ?_, ?_, rfl, by omega⟩
  · rw [h2, rdU32_wrU32_mod, mod_eq_of_lt (by omega)]
  · rw [h6, rdU32_wrU32_mod]

lemma nextFrame_encode (hf : f.Fits) (ys : Bytes) :
    tmFrameReaderNext (e ++ ys) = (ys, .frame f) := by
  obtain ⟨h0, h1, h2, h6, hd, hl⟩ := encode_header h ys
  have he := length_tmFrameEncode h
  rw [tmFrameReaderNext_frame, h0, h1, h2, h6, hd, mod_eq_of_lt hf.2, hf.1, ← he]
  refine ⟨?_, rfl, hl, drop_left, ?_⟩
  · rw [length_append]
    omega
  · rw [take_left]

end

lemma nextFrame_part (h : tmFrameEncode f = some (x ++ y)) (hy : y ≠ []) :
    tmFrameReaderNext x = (x, .none) := by
  have hlen := length_tmFrameEncode h
  have hpos := length_pos_iff.2 hy
  obtain ⟨h0, -, h2, -, -, hl⟩ := encode_header h []
  rw [append_nil] at h0 h2
  unfold tmFrameReaderNext
  dsimp only
  split_ifs with h10 hv hm hs
  · rfl
  · rw [getD_append_of_lt (by simp only [tmFrameHdrLen] at h10; omega)] at h0
    exact absurd h0 hv
  · rw [rdU32_drop_append (by simp only [tmFrameHdrLen] at h10; omega)] at h2
    omega
  · rfl
  · rw [rdU32_drop_append (by simp only [tmFrameHdrLen] at h10; omega)] at h2
    rw [length_append] at hlen
    omega

variable {fs : List Frame}

lemma all_encoded
    (h : List.Forall₂ (fun f b => tmFrameEncode f = some b) fs bs) (hf : ∀ f ∈ fs, f.Fits)
    {tail : Bytes} (ht : nextFrame tail = none) :
    framing.all (bs.flatten ++ tail) = (fs, tail) := by
  induction h with
  | nil => exact all_none ht
  | @cons f b fs bs hb _ ih =>
    have hn : framing.next (b ++ (bs.flatten ++ tail)) = some (f, bs.flatten ++ tail) :=
      nextFrame_eq_some.2 (nextFrame_encode hb (hf f mem_cons_self) _)
    rw [flatten_cons, append_assoc, all_some hn, ih fun g hg => hf g (mem_cons_of_mem _ hg)]

theorem decode_chunks :
    (∀ (cs cs' : List Bytes) (r r' : List Frame × Bytes), cs.flatten = cs'.flatten →
      feedChunks [] cs = some r → feedChunks [] cs' = some r' → r = r') ∧
    ∀ (fs : List Frame) (bs : List Bytes) (tail : Bytes) (cs : List Bytes)
      (r : List Frame × Bytes), (∀ f ∈ fs, f.Fits) →
      List.Forall₂ (fun f b => tmFrameEncode f = some b) fs bs → nextFrame tail = none →
      cs.flatten = bs.flatten ++ tail → feedChunks [] cs = some r →
      r.1 = fs ∧ (tmFrameReaderDrain r.2).1 = tail := by
  have hnil : framing.all [] = ([], []) := all_none rfl
  constructor
  · intro cs cs' r r' hcut h h'
    rw [feedChunks_eq h hnil, feedChunks_eq h' hnil, hcut]
  · intro fs bs tail cs r hf henc ht hcut h
    have hr := feedChunks_eq h hnil
    rw [nil_append, hcut, all_encoded henc hf ht] at hr
    rw [hr]
    exact ⟨rfl, rfl⟩

theorem decode_chunks_two :
    feedChunks [] [[1, 6, 0, 0, 0, 0, 0, 0, 0, 0, 1, 19], [0, 0, 0, 1, 0, 0, 1, 2, 7, 1, 6, 0]] =
      feedChunks [] [[1, 6, 0, 0], [0, 0, 0, 0, 0, 0, 1, 19, 0, 0, 0, 1, 0, 0, 1, 2],
        [7, 1, 6, 0]] ∧ ∀ r, feedChunks [] [[1, 6, 0, 0, 0, 0, 0, 0, 0, 0, 1, 19],
        [0, 0, 0, 1, 0, 0, 1, 2, 7, 1, 6, 0]] = some r →
      r.1 = [⟨.ping, 0, []⟩, ⟨.auth, 258, [7]⟩] ∧ (tmFrameReaderDrain r.2).1 = [1, 6, 0] := by
  have h₁ : feedChunks [] [[1, 6, 0, 0, 0, 0, 0, 0, 0, 0, 1, 19],
      [0, 0, 0, 1, 0, 0, 1, 2, 7, 1, 6, 0]] =
        some ([⟨.ping, 0, []⟩, ⟨.auth, 258, [7]⟩], [1, 6, 0]) := by decide
  have h₂ : feedChunks [] [[1, 6, 0, 0], [0, 0, 0, 0, 0, 0, 1, 19, 0, 0, 0, 1, 0, 0, 1, 2],
      [7, 1, 6, 0]] = some ([⟨.ping, 0, []⟩, ⟨.auth, 258, [7]⟩], [1, 6, 0]) := by decide
  constructor
  · have := decode_chunks.1 _ _ _ _ (by decide) h₁ h₂
    exact h₁.trans ((congrArg some this).trans h₂.symm)
  · intro r h
    exact decode_chunks.2 _ [[1, 6, 0, 0, 0, 0, 0, 0, 0, 0], [1, 19, 0, 0, 0, 1, 0, 0, 1, 2, 7]]
      _ _ r (by decide) (.cons (by decide) (.cons (by decide) .nil)) (by decide) (by decide) h

/-! ## Whether a chunk is refused -/

lemma takeFrames_encoded
    (h : List.Forall₂ (fun f b => tmFrameEncode f = some b) fs bs) (hf : ∀ f ∈ fs, f.Fits) :
    ∀ (n : ℕ) (x y : Bytes), x.length ≤ n → x ++ y = bs.flatten →
    ∃ fs₁ fs₂ bs₂ x', takeFrames n (tmFrameReaderNext x) = some (fs₁, x') ∧ fs = fs₁ ++ fs₂ ∧
      List.Forall₂ (fun f b => tmFrameEncode f = some b) fs₂ bs₂ ∧ bs₂ <:+ bs ∧
      x' ++ y = bs₂.flatten ∧ ∀ b ∈ bs₂.head?, x'.length < b.length := by
  induction h with
  | nil =>
    intro n x y _ hxy
    obtain ⟨rfl, rfl⟩ := append_eq_nil_iff.1 hxy
    have h0 : tmFrameReaderNext [] = ([], .none) := by decide
    refine ⟨[], [], [], [], ?_, rfl, .nil, suffix_rfl, rfl, by simp⟩
    rw [h0, takeFrames]
  | @cons f b fs bs hb hbs ih =>
    intro n x y hn hxy
    rw [flatten_cons, append_eq_append_iff] at hxy
    by_cases hend : b.length ≤ x.length
    · -- the frame is complete
      obtain ⟨x', rfl, hx'⟩ : ∃ x', x = b ++ x' ∧ bs.flatten = x' ++ y := by
        rcases hxy with ⟨c, rfl, rfl⟩ | h
        · obtain rfl : c = [] := by
            rw [length_append] at hend
            exact eq_nil_of_length_eq_zero (by omega)
          exact ⟨[], by simp, by simp⟩
        · exact h
      have hpos := length_tmFrameEncode hb
      rw [length_append] at hn
      simp only [tmFrameHdrLen] at hpos
      obtain ⟨m, rfl⟩ : ∃ m, n = m + 1 := ⟨n - 1, by omega⟩
      obtain ⟨fs₁, fs₂, bs₂, z, ht, rfl, h₂, hs, hrest⟩ :=
        ih (fun g hg => hf g (mem_cons_of_mem _ hg)) m x' y (by omega) hx'.symm
      refine ⟨f :: fs₁, fs₂, bs₂, z, ?_, rfl, h₂, hs.trans (suffix_cons _ _), hrest⟩
      rw [nextFrame_encode hb (hf f mem_cons_self), takeFrames, feed_nil, ht, map_some]
    · -- a part of the frame is there
      rcases hxy with ⟨c, rfl, rfl⟩ | ⟨c, rfl, -⟩
      · have hc : c ≠ [] := by
          rintro rfl
          simp at hend
        refine ⟨[], f :: fs, (x ++ c) :: bs, x, ?_, rfl, .cons hb hbs, suffix_rfl, by simp, ?_⟩
        · rw [nextFrame_part hb hc, takeFrames]
        · simp only [head?_cons, mem_def, some.injEq, forall_eq']
          omega
      · rw [length_append] at hend
        omega

/-- Each frame leaves room for a chunk behind all but its last byte, or it is the end of the stream
together with what comes behind it. -/
def Roomy (bs : List Bytes) : Prop := ∀ b bs', b :: bs' <:+ bs →
  b.length + 65535 ≤ tmMaxFramePayload + tmFrameHdrLen ∨
    (b :: bs').flatten.length ≤ tmMaxFramePayload + tmFrameHdrLen

lemma feedChunks_encoded (hf : ∀ f ∈ fs, f.Fits) (hr : Roomy bs)
    (h : List.Forall₂ (fun f b => tmFrameEncode f = some b) fs bs)
    (hc : ∀ c ∈ cs, c.length ≤ 65536) (hcut : buf ++ cs.flatten = bs.flatten)
    (hbuf : ∀ b ∈ bs.head?, buf.length < b.length) : feedChunks buf cs = some (fs, []) := by
  induction cs generalizing buf fs bs with
  | nil =>
    rw [flatten_nil, append_nil] at hcut
    cases h with
    | nil => rw [hcut, feedChunks, flatten_nil]
    | @cons f b =>
      have := hbuf b rfl
      rw [hcut, flatten_cons, length_append] at this
      omega
  | cons c cs ih =>
    have hlen := congrArg length hcut
    rw [flatten_cons, ← append_assoc] at hcut
    have hfeed : tmFrameReaderFeed buf c = tmFrameReaderNext (buf ++ c) := by
      unfold tmFrameReaderFeed
      rw [if_neg]
      rintro ⟨hne, hbig⟩
      cases h with
      | nil =>
        obtain ⟨h1, -⟩ := append_eq_nil_iff.1 hcut
        exact hne (append_eq_nil_iff.1 h1).2
      | @cons f b fs bs hb =>
        have h1 := hbuf b rfl
        have h2 := hc c mem_cons_self
        have h3 := hr b bs suffix_rfl
        rw [flatten_cons, length_append, length_append] at hlen
        omega
    obtain ⟨fs₁, fs₂, bs₂, x, ht, rfl, h₂, hs, hcut₂, hx⟩ :=
      takeFrames_encoded h hf (buf.length + c.length) (buf ++ c) cs.flatten
        (length_append ▸ le_rfl) hcut
    have := ih (fun f hm => hf f (mem_append_right _ hm))
      (fun b bs' hb => hr b bs' (hb.trans hs)) h₂
      (fun d hd => hc d (mem_cons_of_mem _ hd)) hcut₂ hx
    rw [feedChunks, hfeed, ht, bind_some, this, map_some]

/-- A long frame with enough behind it is refused if it comes but for its last byte, and then this
byte with as much as a chunk holds. -/
lemma exists_refused {bs' : List Bytes}
    (h : List.Forall₂ (fun f b => tmFrameEncode f = some b) fs bs) (hf : ∀ f ∈ fs, f.Fits)
    (he : tmFrameEncode f = some e) (hl : tmMaxFramePayload + tmFrameHdrLen < e.length + 65535)
    (hb : tmMaxFramePayload + tmFrameHdrLen < (e :: bs').flatten.length) :
    ∃ cs : List Bytes, (∀ c ∈ cs, c.length ≤ 65536) ∧ cs.flatten = (bs ++ e :: bs').flatten ∧
      feedChunks [] cs = none := by
  have hpos := length_tmFrameEncode he
  obtain ⟨x, z, rfl⟩ : ∃ x z, e = x ++ [z] := by
    refine ⟨e.dropLast, _, (dropLast_concat_getLast fun hn => ?_).symm⟩
    rw [hn, length_nil, tmFrameHdrLen] at hpos
    omega
  set y := z :: bs'.flatten with hy
  have hflat : (bs ++ (x ++ [z]) :: bs').flatten = bs.flatten ++ x ++ y := by simp [hy]
  simp only [flatten_cons, length_append, length_singleton] at hl hb
  have hylen : y.length = 1 + bs'.flatten.length := by rw [hy, length_cons, add_comm]
  have one (l : Bytes) : (l.map fun a => [a]).flatten = l := by
    rw [← flatMap_def, flatMap_singleton']
  refine ⟨(bs.flatten ++ x).map (fun a => [a]) ++
    y.take 65536 :: (y.drop 65536).map fun a => [a], fun c hc => ?_, ?_, ?_⟩
  · simp only [mem_append, mem_cons, List.mem_map] at hc
    obtain ⟨a, -, rfl⟩ | rfl | ⟨a, -, rfl⟩ := hc
    · simp
    · exact length_take_le _ _
    · simp
  · rw [flatten_append, flatten_cons, one, one, take_append_drop, hflat]
  · rw [feedChunks_append]
    cases hr : feedChunks [] ((bs.flatten ++ x).map fun a => [a]) with
    | none => rfl
    | some r =>
      have hall := feedChunks_eq hr (all_none rfl)
      have hx : nextFrame x = none := by
        rw [nextFrame, nextFrame_part he (by simp)]
      rw [nil_append, one, all_encoded h hf hx] at hall
      have hbig : x.length + (y.take 65536).length > tmMaxFramePayload + tmFrameHdrLen := by
        rw [length_take]
        omega
      have hne : y.take 65536 ≠ [] := by simp [hy]
      have hfeed : tmFrameReaderFeed r.2 (y.take 65536) = (x, .errored) := by
        rw [hall, tmFrameReaderFeed, if_pos ⟨hne, hbig⟩]
      rw [bind_some, feedChunks, hfeed, takeFrames, bind_none, map_none]

/-- A stream of encoded frames is read whole however it is cut if and only if it is `Roomy`. -/
theorem feed_encoded (fs : List Frame) (bs : List Bytes) (hf : ∀ f ∈ fs, f.Fits)
    (h : List.Forall₂ (fun f b => tmFrameEncode f = some b) fs bs) :
    (∀ cs : List Bytes, (∀ c ∈ cs, c.length ≤ 65536) → cs.flatten = bs.flatten →
      feedChunks [] cs = some (fs, [])) ↔ Roomy bs := by
  constructor
  · rintro hall b bs' ⟨bs₁, rfl⟩
    by_contra hn
    rw [not_or, not_le, not_le] at hn
    obtain ⟨f, fs', he, -, -⟩ := forall₂_cons_right_iff.1 (forall₂_drop_append _ _ _ h)
    obtain ⟨cs, hc, hcut, hfeed⟩ := exists_refused (forall₂_take_append _ _ _ h)
      (fun f hm => hf f (mem_of_mem_take hm)) he hn.1 hn.2
    rw [hall cs hc hcut] at hfeed
    cases hfeed
  · intro hr cs hc hcut
    refine feedChunks_encoded hf hr h hc hcut fun b hb => ?_
    cases h with
    | nil => cases hb
    | cons hb' =>
      cases hb
      rw [length_tmFrameEncode hb', tmFrameHdrLen, length_nil]
      omega

theorem feed_encoded_two : feedChunks [] [[1, 6, 0, 0, 0, 0, 0, 0, 0, 0, 1], [7],
    [0, 0, 0, 0, 0, 0, 0, 0]] = some ([⟨.ping, 0, []⟩, ⟨.pong, 0, []⟩], []) := by
  refine (feed_encoded _ [[1, 6, 0, 0, 0, 0, 0, 0, 0, 0], [1, 7, 0, 0, 0, 0, 0, 0, 0, 0]]
    (by decide) (.cons (by decide) (.cons (by decide) .nil))).2 (fun b bs' hb => .inl ?_) _
    (by decide) (by decide)
  have hm := hb.subset mem_cons_self
  simp only [mem_cons, not_mem_nil, or_false] at hm
  rcases hm with rfl | rfl <;> decide

/-- A frame with the longest payload, and a PING behind it. -/
def maximal : Frame := ⟨.dataBind, 0, .replicate tmMaxFramePayload 0⟩

theorem maximal_frame_refused : ∃ b cs, tmFrameEncode maximal = some b ∧
    (∀ c ∈ cs, c.length ≤ 65536) ∧ cs.flatten = b ++ [1, 6, 0, 0, 0, 0, 0, 0, 0, 0] ∧
    tmFrameEncode ⟨.ping, 0, []⟩ = some [1, 6, 0, 0, 0, 0, 0, 0, 0, 0] ∧
    feedChunks [] cs = none := by
  have hp : maximal.payload.length = tmMaxFramePayload := length_replicate
  obtain ⟨b, hb⟩ : ∃ b, tmFrameEncode maximal = some b := by
    rw [tmFrameEncode, if_neg (by rw [hp]; omega)]
    exact ⟨_, rfl⟩
  have hl := length_tmFrameEncode hb
  have hlong : tmMaxFramePayload + tmFrameHdrLen <
      (b :: [[1, 6, 0, 0, 0, 0, 0, 0, 0, 0]]).flatten.length := by
    simp only [flatten_cons, length_append, length_cons]
    omega
  obtain ⟨cs, hc, hcut, hfeed⟩ := exists_refused .nil nofun hb (by omega) hlong
  exact ⟨b, cs, hb, hc, by simpa using hcut, by decide, hfeed⟩

end TunnelMate
