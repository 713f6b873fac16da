import TunnelMate.Proofs.AgentActs
import TunnelMate.Proofs.Reader

/-!
# What an agent stream carries

A data connection first speaks in frames and then, behind DATA_BIND_OK, in raw bytes.
-/

namespace TunnelMate.Agent

open Bool hiding not_or
open List Option AgentRelay Nat AStream Duplex.Stream

open AgentRelay (Good Same)
open Duplex (Ans Config Inv tmStreamClose closing_close)

def bindReply (sid : ℕ) (_ : List Frame) (f : Frame) : Bool :=
  f.type = .dataBindOk && f.streamId = sid

def AStream.carried (st : AStream) : Option Bytes := framing.after (bindReply st.sid) [] st.inp

structure Held (st : AStream) : Prop where
  good : Good False st.relay
  framed : st.raw = false → st.relay.s.bound = false ∧ st.relay.s.preq = [] ∧ st.relay.s.a.rd = []
  after : st.raw = true → ∀ ys,
    framing.after (bindReply st.sid) [] (st.inp ++ ys) = some (st.relay.s.a.rd ++ ys)

structure Carried (st : AStream) : Prop extends Held st where
  behind : st.raw = false → st.relay.s.closing = false →
    ∃ seen, framing.Behind (bindReply st.sid) st.inp seen st.fr

variable {st st' : AStream}

namespace Held

lemma close (h : Held st) : Carried st.close := by
  unfold AStream.close
  split_ifs with hc
  · exact ⟨h, fun _ hc' => absurd (hc'.symm.trans hc) (by simp)⟩
  have hs : Same st.relay.s (tmStreamClose st.relay.s) := same_acts .close
  refine ⟨⟨h.good.close, fun hr => ?_, fun hr ys => ?_⟩, fun _ hc' => ?_⟩
  · obtain ⟨hb, hp, hrd⟩ := h.framed hr
    exact ⟨hs.bound.trans hb, hs.preq.trans hp, (hs.rd .a).trans hrd⟩
  · exact (h.after hr ys).trans (congrArg (fun rd => some (rd ++ ys)) (hs.rd .a).symm)
  · exact absurd (hc'.symm.trans closing_close) (by simp)

lemma handOver (h : Held st) (hr : st.raw = false)
    (ha : ∀ ys, framing.after (bindReply st.sid) [] (st.inp ++ ys) = some (st.fr ++ ys)) :
    Carried st.handOver := by
  obtain ⟨hb, hp, hrd⟩ := h.framed hr
  have hinv := h.good.inv.queuePre (p := st.relay.s.a.paused) (.note .a st.fr st.relay.s) hb
  have hs : { st.relay.s.noteRead .a st.fr with
      preq := (st.relay.s.noteRead .a st.fr).preq ++ st.fr
      a := { (st.relay.s.noteRead .a st.fr).a with paused := st.relay.s.a.paused } } =
      { st.relay.s.noteRead .a st.fr with preq := st.fr } := by
    rw [show (st.relay.s.noteRead .a st.fr).preq = [] from hp]
    rfl
  rw [hs] at hinv
  refine ⟨⟨⟨hinv, h.good.ios, fun h => h.elim⟩, fun hr => ?_, fun _ ys => ?_⟩, fun hr => ?_⟩
  · cases hr
  · have : st.handOver.relay.s.a.rd = st.fr := by
      simp [AStream.handOver, noteRead, upd, hrd]
    rw [this]
    exact ha ys
  · cases hr

end Held

namespace Carried

section

variable (h : Carried st)
include h

lemma uvInit (w : Which) : Carried (st.uvInit w) := by
  cases w <;> exact { h with }

lemma tmTcpConnect (w : Which) (ans : ConnectAns) : Carried (st.tmTcpConnect w ans).2 := by
  unfold AStream.tmTcpConnect
  split_ifs
  · exact h
  · exact h.uvInit w

lemma live (hio : st.relay.s.a.io.isSome = true) :
    st.relay.s.closing = false := (h.good.inv.of_io (l := .a) hio).1

end

end Carried

lemma Held.preLoop (ans : ConnectAns) {n : ℕ} {fed : Fed} {buf : Bytes} {seen : List Frame}
    (h : Held st) (hr : st.raw = false) (hb : framing.Behind (bindReply st.sid) st.inp seen buf)
    (hn : tmFrameReaderNext buf = (st.fr, fed))
    (hlen : ∀ f, fed = .frame f → st.fr.length < n) : Carried (preLoop ans n fed st).1 := by
  induction n generalizing fed st buf seen with
  | zero =>
    cases fed with
    | none => exact ⟨h, fun _ _ => ⟨seen, tmFrameReaderNext_none hn ▸ hb⟩⟩
    | errored => exact h.close
    | frame f => exact absurd (hlen f rfl) (not_lt_zero _)
  | succ n ih =>
    cases fed with
    | none => exact ⟨h, fun _ _ => ⟨seen, tmFrameReaderNext_none hn ▸ hb⟩⟩
    | errored => exact h.close
    | frame f =>
      have hnext : framing.next buf = some (f, st.fr) := nextFrame_eq_some.2 hn
      simp only [preLoop]
      split_ifs with hf hf'
      · have hstop : bindReply st.sid seen f = true := by simpa [bindReply] using hf
        exact ((h.handOver hr (hb.found hnext hstop)).uvInit _).tmTcpConnect _ ans
      · exact h.close
      · have hskip : bindReply st.sid seen f = false := by simpa [bindReply] using hf
        rw [feed_nil]
        refine ih { h with } hr (hb.skip hnext hskip) rfl fun g hg => ?_
        have hpair : tmFrameReaderNext st.fr = ((tmFrameReaderNext st.fr).1, .frame g) :=
          Prod.ext rfl hg
        have hshort := framing.shorter (nextFrame_eq_some.2 hpair)
        exact lt_of_lt_of_le hshort (le_of_lt_succ (hlen f rfl))

lemma Carried.dataConnPreRead (h : Carried st) (hr : st.raw = false)
    (hc : st.relay.s.closing = false) (d : Bytes) (w : Ans) (ans : ConnectAns) :
    Carried (st.dataConnPreRead d w ans).1 := by
  obtain ⟨seen, hb⟩ := h.behind hr hc
  obtain ⟨hbound, -⟩ := h.framed hr
  have hheld : ∀ fr, Held { st with inp := st.inp ++ d, fr := fr } := fun fr =>
    ⟨h.good, h.framed, fun hr' => absurd (hr.symm.trans hr') (by simp)⟩
  unfold AStream.dataConnPreRead
  dsimp only
  rw [if_neg (by simp [hbound])]
  by_cases he : (tmFrameReaderFeed st.fr d).2 = .errored
  · rw [he]
    exact (hheld _).close
  · rw [feed_eq he]
    exact (hheld _).preLoop ans hr (hb.feed d) rfl fun _ _ => lt_succ_self _

lemma Carried.relayed {c : Config AgentRelay.Tail} {l : AgentRelay.Label} (h : Carried st)
    (hl : st.raw = true ∨ early l = true) (hs : AgentRelay.step st.relay l = some c) :
    Carried { st.relayed c with inp := st.inp ++ delivered l } := by
  obtain ⟨hmono, hrd, hsame⟩ := relay_step hs
  have hgood : Good False c := step_good h.good (fun h => h.elim) hs
  have hheld : Held { st with relay := c, inp := st.inp ++ delivered l } := by
    refine ⟨hgood, fun hr => ?_, fun hr ys => ?_⟩
    · have hs := hsame (hl.resolve_left (by simp [show st.raw = false from hr]))
      obtain ⟨hb, hp, hrd'⟩ := h.framed hr
      exact ⟨hs.bound.trans hb, hs.preq.trans hp, (hs.rd .a).trans hrd'⟩
    · rw [hrd, append_assoc, append_assoc]
      exact h.after hr _
  unfold AStream.relayed
  split_ifs with hc
  · simp only [and_eq_true, not_eq_true'] at hc
    exact ⟨{ hheld with }, fun _ hc' => absurd (hc'.symm.trans hc.1) (by simp)⟩
  · refine ⟨hheld, fun hr hc' => ?_⟩
    have hd : delivered l = [] := by
      have he := hl.resolve_left (by simp [show st.raw = false from hr])
      revert he
      rcases l with ⟨_ | _, _, _⟩ | _ | _ | _ | _ | _ | _ | _ | _ <;> simp [early, delivered]
    have hlive : st.relay.s.closing = false := by
      by_contra hcl
      exact absurd (hmono (by simpa using hcl)) (by simp [show c.s.closing = false from hc'])
    obtain ⟨seen, hb⟩ := h.behind hr hlive
    refine ⟨seen, ?_⟩
    rw [hd, append_nil]
    exact hb

lemma kept_carried (secret : Bytes) : Kept secret Carried where
  io h hc := h.good.inv.closed hc .a
  close h := h.toHeld.close
  closed {st w} h _ _ := by cases w <;> exact { h with }
  event {st st' ev e} h he := by
    cases ev with
    | connected =>
      simp only [event] at he
      split_ifs at he
      all_goals
        obtain ⟨rfl, -⟩ := Prod.mk.inj (some.inj he)
        exact { h with }
    | ready =>
      simp only [event, ite_none_right_eq_some] at he
      obtain ⟨-, he⟩ := he
      obtain ⟨rfl, -⟩ := Prod.mk.inj (some.inj he)
      unfold dataConnReady
      split_ifs
      · exact { h with }
      · exact h.toHeld.close
    | preRead d w ans =>
      simp only [event, ite_none_right_eq_some, and_eq_true, not_eq_true'] at he
      obtain ⟨⟨⟨hr, hio⟩, -⟩, he⟩ := he
      obtain ⟨rfl, -⟩ := Prod.mk.inj (some.inj he)
      exact h.dataConnPreRead hr (h.live hio) d w ans
    | preEof =>
      simp only [event, ite_none_right_eq_some, and_eq_true, not_eq_true'] at he
      obtain ⟨⟨⟨hr, -⟩, -⟩, he⟩ := he
      obtain ⟨rfl, -⟩ := Prod.mk.inj (some.inj he)
      unfold dataConnEof
      rw [if_pos (by simp [(h.framed hr).1])]
      exact h.toHeld.close
    | relay =>
      simp only [event, ite_none_left_eq_some, or_eq_true, not_or, not_eq_true, not_eq_false'] at he
      obtain ⟨⟨hl, -⟩, he⟩ := he
      obtain ⟨c, hs, he⟩ := map_eq_some_iff.1 he
      split_ifs at he
      · obtain ⟨rfl, -⟩ := Prod.mk.inj he
        exact h
      · obtain ⟨rfl, -⟩ := Prod.mk.inj he
        exact h
      · obtain ⟨rfl, -⟩ := Prod.mk.inj he
        exact h.relayed (by simpa using hl) hs

/-! ## Runs -/

lemma inv_empty : Inv (⟨{}, []⟩ : Config AgentRelay.Tail) := by
  refine ⟨fun m => ?_, by simp, fun m => ?_, fun m => ?_, fun _ => ⟨rfl, rfl, rfl, fun m => ?_⟩,
    by simp⟩
  · cases m <;> simp [side, Duplex.pipe, Pipe.Ok, Duplex.Leg.other, queue]
  · cases m <;> simp [side]
  · cases m <;> simp [side]
  · cases m <;> simp [side]

lemma carried_new_close (r : Ref) (sid : ℕ) : Carried (new r sid).close :=
  ⟨⟨⟨inv_empty.close, ios_close, fun h => h.elim⟩, fun _ => ⟨rfl, rfl, rfl⟩,
    fun hr => by cases hr⟩, fun _ hc => by cases hc⟩

lemma carried_setUp (r : Ref) (sid : ℕ) (ssl : SslAns) (ans : ConnectAns) :
    Carried ((new r sid).setUp ssl ans) := by
  have h : Carried { new r sid with relay := ⟨bindOk [], []⟩ } :=
    ⟨⟨good_init ⟨rfl, [], rfl⟩, fun _ => ⟨rfl, rfl, rfl⟩, fun hr => by cases hr⟩,
      fun _ _ => ⟨[], .start⟩⟩
  have h' := h.tmTcpConnect .brokerSock ans
  unfold setUp
  dsimp only
  split_ifs
  · exact carried_new_close r sid
  · exact carried_new_close r sid
  · exact h'.toHeld.close
  · exact { h' with }

lemma carried_of_trace {cfg : Cfg} {a : App} {tr : List (App × Label)}
    (h : Trace (step cfg) (Init cfg) tr a) : ∀ st ∈ a.records, Carried st :=
  (Ok.of_trace (Q := fun _ => True) (kept_carried _)
    (fun ans _ r sid => carried_setUp r sid ans.ssl ans.connect) h fun _ _ _ _ => trivial).all

lemma Carried.accepted (h : Carried st) : st.relay.s.b.acc <+: st.carried.getD [] ∧
    st.relay.s.a.acc <+: st.relay.s.b.rd := by
  have hb : st.relay.s.b.acc <+: st.relay.s.a.rd := (h.good.inv.pipes .b).1
  refine ⟨?_, (h.good.inv.pipes .a).1⟩
  cases hr : st.raw with
  | true =>
    have ha := h.after hr []
    rw [append_nil, append_nil] at ha
    rw [carried, ha]
    exact hb
  | false =>
    rw [(h.framed hr).2.2] at hb
    rw [prefix_nil.1 hb]
    exact nil_prefix

end TunnelMate.Agent
