import TunnelMate.Peer
import TunnelMate.Proofs.AgentBind

/-!
# What a peer session carries

As on the agent, a session reads frames up to DATA_BIND_OK and raw bytes behind it.
-/

namespace TunnelMate.Peer

open Bool hiding and_assoc
open List Option AgentRelay Nat Duplex.Stream Sess

open AgentRelay (Good Ios Same Tail)
open Duplex (Ans Config Inv Leg tmStreamClose closing_close)

def bindReply (seen : List Frame) (f : Frame) : Bool :=
  f.type = .dataBindOk && f.streamId = 0 && seen.any fun g => g.type = .helloAck

def Sess.carried (s : Sess) : Option Bytes := framing.after bindReply [] s.inp

structure Held (s : Sess) : Prop where
  inv : Inv s.relay
  unset : s.brokerReq = true → s.relay = ⟨{}, []⟩ ∨ s.relay = ⟨tmStreamClose {}, []⟩
  ios : s.brokerReq = false → Ios s.relay.s
  framed : s.relay.s.bound = false → s.relay.s.preq = [] ∧ s.relay.s.a.rd = []
  after : s.relay.s.bound = true → ∀ ys,
    framing.after bindReply [] (s.inp ++ ys) = some (s.relay.s.a.rd ++ ys)

structure Reading (s : Sess) (seen : List Frame) (buf : Bytes) : Prop where
  behind : framing.Behind bindReply s.inp seen buf
  hello : s.gotHello = seen.any fun g => g.type = .helloAck
  short : buf.length ≤ tmMaxFramePayload + tmFrameHdrLen

structure Carried (s : Sess) : Prop extends Held s where
  reading : s.relay.s.bound = false → s.relay.s.closing = false → ∃ seen, Reading s seen s.fr

variable {s s' : Sess}

namespace Held

lemma close (h : Held s) : Carried s.close := by
  unfold Sess.close
  split_ifs with hc
  · exact ⟨h, fun _ hc' => absurd (hc'.symm.trans hc) (by simp)⟩
  have hs : Same s.relay.s (tmStreamClose s.relay.s) := same_acts .close
  refine ⟨⟨h.inv.close, fun hr => .inr ?_, fun _ => ios_close, fun hb => ?_,
    fun hb ys => ?_⟩, fun _ hc' => absurd (hc'.symm.trans closing_close) (by simp)⟩
  · rcases h.unset hr with he | he
    · exact congrArg (fun c : Config Tail => (⟨tmStreamClose c.s, c.todo⟩ : Config Tail)) he
    · exact absurd (congrArg (fun c : Config Tail => c.s.closing) he) hc
  · obtain ⟨hp, hrd⟩ := h.framed (hs.bound.symm.trans hb)
    exact ⟨hs.preq.trans hp, (hs.rd .a).trans hrd⟩
  · have ha := h.after (hs.bound.symm.trans hb) ys
    exact ha.trans (congrArg (fun rd => some (rd ++ ys)) (hs.rd .a).symm)

lemma live (h : Held s) (hio : s.relay.s.a.io.isSome = true) :
    s.relay.s.closing = false ∧ s.brokerReq = false := by
  refine ⟨(h.inv.of_io (l := .a) hio).1, ?_⟩
  by_contra hr
  rcases h.unset (by simpa using hr) with he | he <;> rw [he] at hio <;> cases hio

lemma good (h : Held s) (hr : s.brokerReq = false) : Good False s.relay :=
  ⟨h.inv, h.ios hr, fun h => h.elim⟩

end Held

lemma Carried.sendFrame (h : Carried s) (f : Frame) (ok : Bool) : Carried (s.sendFrame f ok) := by
  unfold Sess.sendFrame
  split_ifs
  · exact h
  · exact h.toHeld.close
  · exact { h with reading := fun hb hc => (h.reading hb hc).imp fun _ r => { r with } }

/-! ## The bind reply -/

variable {n : ℕ} {d : Bytes} {uv : Bool} {oks : List Bool} {cfg : Cfg}

lemma tcpWrite_new (hn : n ≤ tmIoHighWater) (uv : Bool) : (TmIo.tcpWrite n uv {}).1 = .ok := by
  unfold TmIo.tcpWrite
  rw [if_neg (by simp), if_neg (by simpa using hn), if_neg (by simp)]

lemma inv_bindOk {r : Duplex.Stream} {lo : Bytes} (h : Inv (⟨r, []⟩ : Config Tail))
    (hb : r.bound = false) (hc : r.closing = false) (hp : r.preq = []) (hd : d = r.b.acc ++ lo) :
    Inv (⟨{ r.noteRead .a lo with
      bound := true
      b := { r.b with io := some .tcp, shut := false, acc := d, drained := lo.isEmpty } }, []⟩ :
        Config Tail) := by
  subst hd
  obtain ⟨-, -, -, h4⟩ := h.unbound hb
  -- the leg is there, with nothing written
  have hbind : Inv (⟨{ r with
      bound := true, b := { r.b with io := some .tcp, shut := false, drained := true } }, []⟩ :
        Config Tail) := by
    refine h.bindB hb hc hc rfl hp (h4 .a).1 ((h4 .b).1.trans hp.symm) (by simp) fun m => ?_
    cases m <;> exact ⟨rfl, rfl, rfl, rfl⟩
  by_cases hlo : lo = []
  · subst hlo
    simpa [noteRead, upd] using hbind
  have hpend : r.b.pend = [] := (h4 .b).1
  have hne : lo.isEmpty = false := by simpa using hlo
  have he : (Duplex.relayWrite .a lo .ok ({ r with
      bound := true
      b := { r.b with io := some .tcp, shut := false, drained := true } }.noteRead .a lo) :
        _ × List (Duplex.Op Tail)) =
      ({ r.noteRead .a lo with
        bound := true
        b := { r.b with
          io := some .tcp, shut := false, acc := r.b.acc ++ lo, drained := lo.isEmpty } },
        [.inIo]) := by
    simp [Duplex.relayWrite, Duplex.tmIoWrite, noteRead, upd, side, Leg.other, hpend, hne]
  have hw := (congrArg (fun p : _ × List (Duplex.Op Tail) => Inv ⟨p.1, p.2 ++ []⟩) he).mp
    (hbind.relayWrite (.note .a lo _) hc rfl)
  exact hw.pop fun _ => rfl

lemma Held.bindOk (h : Held s) (hb : s.relay.s.bound = false)
    (hio : s.relay.s.a.io.isSome = true) (ht : s.relay.todo = [])
    (hlen : s.fr.length ≤ tmIoHighWater)
    (ha : ∀ ys, framing.after bindReply [] (s.inp ++ ys) = some (s.fr ++ ys))
    (he : s.bindOk uv = some s') : Carried s' := by
  obtain ⟨hc, hr⟩ := h.live hio
  obtain ⟨hp, hrd⟩ := h.framed hb
  unfold Sess.bindOk at he
  dsimp only at he
  cases (ite_none_left_eq_some.1 he).2
  rw [tcpWrite_new hlen, if_pos rfl, ht]
  have hinv : Inv (⟨s.relay.s, []⟩ : Config Tail) := ht ▸ h.inv
  refine ⟨⟨inv_bindOk hinv hb hc hp rfl, fun hr' => ?_, fun _ _ => ⟨?_, by simp⟩, fun hb' => ?_,
    fun _ ys => ?_⟩, fun hb' => ?_⟩
  · exact absurd (hr.symm.trans hr') (by simp)
  · exact (h.ios hr hc).1
  · cases hb'
  · have hrd' : (s.relay.s.noteRead .a s.fr).a.rd = s.fr := by
      simp [noteRead, upd, hrd]
    exact (ha ys).trans (congrArg (fun rd => some (rd ++ ys)) hrd'.symm)
  · cases hb'

/-! ## The frames before it -/

lemma sendFrame_cases (f : Frame) (ok : Bool) (s : Sess) :
    (∃ out, s.sendFrame f ok = { s with out := out }) ∨ s.sendFrame f ok = s.close := by
  unfold sendFrame
  split_ifs
  · exact .inl ⟨s.out, rfl⟩
  · exact .inr rfl
  · exact .inl ⟨_, rfl⟩

lemma Sess.closing_close : s.close.relay.s.closing = true := by
  unfold close
  split_ifs with hc
  · exact hc
  · exact Duplex.closing_close

lemma frame_cases (cfg : Cfg) (f : Frame) (ok uv : Bool) (s : Sess) : ((∃ out, s.frame cfg f ok uv =
        .go { s with gotHello := s.gotHello || f.type = .helloAck, out := out }) ∧
      ¬ (f.type = .dataBindOk ∧ f.streamId = 0 ∧ s.gotHello = true)) ∨
    (∃ s', s.frame cfg f ok uv = .go s' ∧ s'.relay.s.closing = true) ∨
    s.frame cfg f ok uv = .ret (some s.close) ∨
    (f.type = .dataBindOk ∧ f.streamId = 0 ∧ s.gotHello = true) ∧
      s.frame cfg f ok uv = .ret (s.bindOk uv) := by
  unfold frame
  split
  · rename_i hf
    rw [hf]
    cases hg : s.gotHello
    · obtain ⟨out, he⟩ | he := sendFrame_cases
          ⟨.auth, 0, wrU16 cfg.tunnelId.length ++ cfg.tunnelId ++ cfg.token⟩ ok
          { s with gotHello := true } <;> rw [he]
      · exact .inl ⟨⟨out, by simp⟩, by simp⟩
      · exact .inr (.inl ⟨_, rfl, closing_close⟩)
    · exact .inl ⟨⟨s.out, by simp [← hg]⟩, by simp⟩
  · rename_i hf
    rw [hf]
    cases hg : s.gotHello
    · exact .inl ⟨⟨s.out, by simp [← hg]⟩, by simp⟩
    · obtain ⟨out, he⟩ | he := sendFrame_cases ⟨.dataBind, 0, []⟩ ok s
      · exact .inl ⟨⟨out, by simp [he, ← hg]⟩, by simp⟩
      · exact .inr (.inl ⟨_, rfl, he ▸ closing_close⟩)
  · rename_i hf
    rw [hf]
    split_ifs with hg
    · exact .inr (.inr (.inr ⟨⟨rfl, hg⟩, rfl⟩))
    · exact .inl ⟨⟨s.out, by simp⟩, fun h => hg h.2⟩
  · exact .inr (.inr (.inl rfl))
  · exact .inr (.inr (.inl rfl))
  · exact .inr (.inr (.inl rfl))
  · exact .inr (.inr (.inl rfl))
  · rename_i h1 h2 h3 h4 h5 h6 h7
    exact .inl ⟨⟨s.out, by simp [show f.type ≠ .helloAck from h1]⟩, fun h => h3 h.1⟩

lemma Held.preLoop (cfg : Cfg) (uv : Bool) {fed : Fed} {buf : Bytes}
    {seen : List Frame} (h : Held s) (hb : s.relay.s.bound = false)
    (hio : s.relay.s.a.io.isSome = true) (ht : s.relay.todo = []) (hr : Reading s seen buf)
    (hn : tmFrameReaderNext buf = (s.fr, fed)) (hlen : ∀ f, fed = .frame f → s.fr.length < n)
    (he : preLoop cfg uv n fed oks s = some s') : Carried s' := by
  induction n generalizing fed oks s buf seen with
  | zero =>
    cases fed with
    | none =>
      cases he
      exact ⟨h, fun _ _ => ⟨seen, tmFrameReaderNext_none hn ▸ hr⟩⟩
    | errored =>
      cases he
      exact h.close
    | frame f => exact absurd (hlen f rfl) (not_lt_zero _)
  | succ n ih =>
    cases fed with
    | none =>
      cases he
      exact ⟨h, fun _ _ => ⟨seen, tmFrameReaderNext_none hn ▸ hr⟩⟩
    | errored =>
      cases he
      exact h.close
    | frame f =>
      have hnext : framing.next buf = some (f, s.fr) := nextFrame_eq_some.2 hn
      have hrest : s.fr.length ≤ tmMaxFramePayload := by
        have h1 := length_of_nextFrame hnext
        have h2 := hr.short
        omega
      simp only [preLoop] at he
      obtain ⟨⟨out, hf⟩, hstop⟩ | ⟨t, hf, hc⟩ | hf | ⟨hstop, hf⟩ :=
        frame_cases cfg f (oks.headD true) uv s <;> rw [hf] at he <;>
        dsimp only at he
      · rw [if_neg (by simp [(h.live hio).1])] at he
        have hskip : bindReply seen f = false := by
          rw [hr.hello] at hstop
          simpa [bindReply] using hstop
        rw [feed_nil] at he
        refine ih (s := { s with
            gotHello := s.gotHello || f.type = .helloAck
            fr := (tmFrameReaderNext s.fr).1
            out := out }) { h with } hb hio ht
          ⟨hr.behind.skip hnext hskip, ?_, hrest.trans (le_add_right _ _)⟩ rfl
          (fun g hg => ?_) he
        · rw [any_cons, ← hr.hello, Bool.or_comm]
        · have hpair : tmFrameReaderNext s.fr = ((tmFrameReaderNext s.fr).1, .frame g) :=
            Prod.ext rfl hg
          have hshort := framing.shorter (nextFrame_eq_some.2 hpair)
          exact lt_of_lt_of_le hshort (le_of_lt_succ (hlen f rfl))
      · rw [if_pos hc] at he
        cases he
      · cases he
        exact h.close
      · have hfound : bindReply seen f = true := by
          rw [hr.hello] at hstop
          simpa [bindReply, and_assoc] using hstop
        exact h.bindOk hb hio ht hrest (hr.behind.found hnext hfound) he

lemma Carried.preRead {ans : Ans}
    (h : Carried s) (hb : s.relay.s.bound = false) (hio : s.relay.s.a.io.isSome = true)
    (ht : s.relay.todo = []) (he : s.preRead cfg d ans oks uv = some s') : Carried s' := by
  obtain ⟨seen, hr⟩ := h.reading hb (h.live hio).1
  have hheld : ∀ fr, Held { s with inp := s.inp ++ d, fr := fr } := fun fr =>
    ⟨h.inv, h.unset, h.ios, h.framed, fun hb' => absurd (hb.symm.trans hb') (by simp)⟩
  unfold Sess.preRead at he
  dsimp only at he
  rw [if_neg (by simp [hb])] at he
  by_cases herr : (tmFrameReaderFeed s.fr d).2 = .errored
  · rw [herr] at he
    cases he
    exact (hheld _).close
  · rw [feed_eq herr] at he
    refine (hheld _).preLoop cfg uv hb hio ht ⟨hr.behind.feed d, hr.hello, ?_⟩ rfl
      (fun _ _ => lt_succ_self _) he
    -- a chunk that would not fit is an error of the reader
    unfold tmFrameReaderFeed at herr
    split_ifs at herr with hbig
    · exact absurd rfl herr
    · have := hr.short
      rw [length_append]
      by_cases hd : d = []
      · simpa [hd] using this
      · exact not_lt.1 fun hlt => hbig ⟨hd, hlt⟩

/-! ## The relay -/

structure Moved (s : Sess) (i : Label) (c : Config Tail) : Prop where
  good : Good False c
  closing : s.relay.s.closing = true → c.s.closing = true
  bound : c.s.bound = s.relay.s.bound
  preq : c.s.preq = s.relay.s.preq
  rd : c.s.a.rd = s.relay.s.a.rd ++ delivered i
  early : s.relay.s.bound = false → delivered i = []

section Relay

variable {c : Config Tail} {i : Label} {l : Leg}

lemma Moved.of_same (hg : Good False c) (hs : Same s.relay.s c.s) (hi : delivered i = []) :
    Moved s i c where
  good := hg
  closing := hs.closing
  bound := hs.bound
  preq := hs.preq
  rd := by
    rw [hi, append_nil]
    exact hs.rd .a
  early _ := hi

lemma moved_read (hg : Good False s.relay) (hc : s.relay.s.closing = false)
    (hb : s.relay.s.bound = true) (l : Leg) (d : Bytes) (ans : Ans) :
    Moved s (.read l d ans) (s.relay.push (relayRead l d ans (s.relay.s.noteRead l d))) := by
  have hr : relayRead l d ans (s.relay.s.noteRead l d)
      = Duplex.relayWrite l d ans (s.relay.s.noteRead l d) := by
    have hcl : (s.relay.s.noteRead l d).closing = false := by
      simpa [noteRead] using hc
    cases l with
    | a =>
      have hio : ¬ (s.relay.s.noteRead .a d).b.io = none := (hg.ios hc).2 hb
      simp [relayRead, relayBrokerRead, hcl, hio]
    | b => simp [relayRead, relayLocalRead, hcl]
  have hsame : Same (s.relay.s.noteRead l d)
      (Duplex.relayWrite l d ans (s.relay.s.noteRead l d) : _ × List (Duplex.Op Tail)).1 :=
    same_acts (Duplex.acts_relayWrite (τ := Tail) d ans)
  have hios : Ios (s.relay.s.noteRead l d) := hg.ios.upd fun _ => rfl
  rw [hr]
  refine ⟨hg.relayWrite (.note l d _) hc hb hios fun h => h.elim, ?_, ?_, ?_, ?_, ?_⟩
  · exact fun h => absurd (hc.symm.trans h) (by simp)
  · exact hsame.bound.trans (by simp [noteRead])
  · exact hsame.preq.trans (by simp [noteRead])
  · refine (hsame.rd .a).trans ?_
    cases l <;> simp [noteRead, upd, side, delivered]
  · exact fun h => absurd (hb.symm.trans h) (by simp)

lemma Held.connected (h : Held s) (hio : (s.relay.s.side l).io.isSome = true) :
    s.brokerReq = false := by
  by_contra hr
  rcases h.unset (by simpa using hr) with he | he <;> rw [he] at hio <;> cases l <;> cases hio

lemma Held.relayStep (h : Held s) (hs : relayStep s i = some c) :
    s.brokerReq = false ∧ Moved s i c := by
  cases i with
  | read l d ans =>
    simp only [Peer.relayStep, hears, ite_none_right_eq_some, and_eq_true] at hs
    obtain ⟨⟨⟨-, hio⟩, hb⟩, hs⟩ := hs
    cases hs
    have hr := h.connected hio
    exact ⟨hr, moved_read (h.good hr) (h.inv.of_io hio).1 hb l d ans⟩
  | eof =>
    simp only [Peer.relayStep, hears, ite_none_right_eq_some, and_eq_true] at hs
    obtain ⟨⟨⟨-, hio⟩, hb⟩, hs⟩ := hs
    cases hs
    have hr := h.connected hio
    exact ⟨hr, .of_same ((h.good hr).relayEof fun _ => hb) same_relayEof rfl⟩
  | error =>
    obtain ⟨-, hio, rfl⟩ := of_guards hs
    have hr := h.connected hio
    exact ⟨hr, .of_same (h.good hr).close (same_acts .close) rfl⟩
  | low =>
    obtain ⟨-, hio, rfl⟩ := of_guards hs
    have hr := h.connected hio
    exact ⟨hr, .of_same ((h.good hr).relayLow (h.inv.of_io hio).2) same_relayLow rfl⟩
  | run =>
    have hr : s.brokerReq = false := by
      by_contra hr
      rcases h.unset (by simpa using hr) with he | he <;>
        simp [Peer.relayStep, he, Duplex.Config.run] at hs
    exact ⟨hr, .of_same (run_good (h.good hr) (fun h => h.elim) hs) (same_run hs) rfl⟩
  | drain =>
    obtain ⟨hio, rfl⟩ := of_guard hs
    have hr := h.connected hio
    refine ⟨hr, .of_same ((h.good hr).upd (fun x => by simp) fun x => by simp) ?_ rfl⟩
    dsimp only
    exact same_acts (.leg fun _ => by simp)
  | _ => cases hs

lemma Carried.relayed (h : Carried s) (hr : s.brokerReq = false) (hm : Moved s i c) :
    Carried { s.relayed c with inp := s.inp ++ delivered i } := by
  refine ⟨⟨hm.good.inv, fun hr' => absurd (hr.symm.trans hr') (by simp), fun _ => hm.good.ios,
    fun hb => ?_, fun hb ys => ?_⟩, fun hb hc => ?_⟩
  · have hb' : s.relay.s.bound = false := hm.bound.symm.trans hb
    obtain ⟨hp, hrd⟩ := h.framed hb'
    refine ⟨hm.preq.trans hp, hm.rd.trans ?_⟩
    rw [hrd, hm.early hb', append_nil]
  · have ha := h.after (hm.bound.symm.trans hb) (delivered i ++ ys)
    rw [← append_assoc, ← append_assoc, ← hm.rd] at ha
    exact ha
  · have hc' : s.relay.s.closing = false := by
      by_contra hcl
      exact absurd (hm.closing (by simpa using hcl)) (by simp [show c.s.closing = false from hc])
    have hb' : s.relay.s.bound = false := hm.bound.symm.trans hb
    obtain ⟨seen, hs⟩ := h.reading hb' hc'
    have hfr : (s.relayed c).fr = s.fr := if_neg (by simp [show c.s.closing = false from hc])
    refine ⟨seen, ?_⟩
    rw [hm.early hb', append_nil, hfr]
    exact { hs with }

end Relay

/-! ## Runs -/

lemma carried_closed (hr : s.relay = ⟨tmStreamClose {}, []⟩) : Carried s := by
  refine ⟨⟨hr ▸ Agent.inv_empty.close, fun _ => .inr hr, fun _ => hr ▸ ios_close,
    fun _ => ?_, fun hb => ?_⟩, fun _ hc => ?_⟩
  · rw [hr]
    exact ⟨rfl, rfl⟩
  · rw [hr] at hb
    cases hb
  · rw [hr] at hc
    cases hc

lemma Carried.brokerConnected (h : Carried s) (hr : s.brokerReq = true)
    (ok sslNew configured : Bool) : Carried (s.brokerConnected ok sslNew configured) := by
  rcases h.unset hr with he | he
  · have hclosed : Carried { s with brokerReq := false }.close :=
      carried_closed (by simp [close, he])
    unfold Sess.brokerConnected
    rw [if_neg (by simp [he])]
    split_ifs
    · exact hclosed
    · exact hclosed
    · exact hclosed
    have hg : Good False
        (⟨{ ({} : Duplex.Stream) with a.io := some (.ssl 0) }, []⟩ : Config Tail) :=
      good_init ⟨rfl, [], rfl⟩
    obtain ⟨seen, hs⟩ := h.reading (by simp [he]) (by simp [he])
    rw [he]
    exact ⟨⟨hg.inv, fun hr => (by cases hr), fun _ => hg.ios, fun _ => ⟨rfl, rfl⟩,
      fun hb => (by cases hb)⟩, fun _ _ => ⟨seen, hs.behind, hs.hello, hs.short⟩⟩
  · unfold Sess.brokerConnected
    rw [if_pos (by simp [he])]
    exact carried_closed he

lemma step_carried {i : Label} (h : Carried s) (hs : step cfg s i = some s') : Carried s' := by
  cases i with
  | connected ok sslNew configured =>
    obtain ⟨hr, hs⟩ := ite_none_right_eq_some.1 hs
    cases hs
    exact h.brokerConnected hr ok sslNew configured
  | ready ok =>
    cases (ite_none_right_eq_some.1 hs).2
    exact h.sendFrame _ ok
  | hsTimer =>
    cases (ite_none_right_eq_some.1 hs).2
    have h' : Carried { s with hsTimer := false } :=
      { h with reading := fun hb hc => (h.reading hb hc).imp fun _ r => { r with } }
    unfold sessHsTimeout
    split_ifs
    · exact h'.toHeld.close
    · exact h'
  | preRead =>
    simp only [step, ite_none_right_eq_some, and_eq_true, not_eq_true', List.isEmpty_iff] at hs
    obtain ⟨⟨⟨hb, hio⟩, ht⟩, hs⟩ := hs
    exact h.preRead hb hio ht hs
  | preEof =>
    simp only [step, ite_none_right_eq_some, and_eq_true, not_eq_true'] at hs
    obtain ⟨⟨⟨hb, -⟩, -⟩, hs⟩ := hs
    cases hs
    unfold eof
    rw [if_pos (by simp [hb])]
    exact h.toHeld.close
  | close =>
    cases (ite_none_right_eq_some.1 hs).2
    exact h.toHeld.close
  | _ =>
    obtain ⟨c, hc, rfl⟩ := map_eq_some_iff.1 hs
    obtain ⟨hr, hm⟩ := h.relayStep hc
    exact h.relayed hr hm

lemma carried_init (h : Init s) : Carried s := by
  subst h
  exact ⟨⟨Agent.inv_empty, fun _ => .inl rfl, fun hr => (by cases hr), fun _ => ⟨rfl, rfl⟩,
    fun hb => (by cases hb)⟩, fun _ _ => ⟨[], .start, rfl, by simp⟩⟩

lemma carried_of_trace {tr : List (Sess × Label)} (h : Trace (step cfg) Init tr s) : Carried s :=
  h.inv (fun _ => carried_init) fun _ _ _ => step_carried

lemma Carried.accepted (h : Carried s) :
    s.relay.s.b.acc <+: s.carried.getD [] ∧ s.relay.s.a.acc <+: s.relay.s.b.rd := by
  have hb : s.relay.s.b.acc <+: s.relay.s.a.rd := (h.inv.pipes .b).1
  refine ⟨?_, (h.inv.pipes .a).1⟩
  cases hbd : s.relay.s.bound with
  | true =>
    have ha := h.after hbd []
    rw [append_nil, append_nil] at ha
    rw [carried, ha]
    exact hb
  | false =>
    rw [(h.framed hbd).2] at hb
    rw [prefix_nil.1 hb]
    exact nil_prefix

/-- In every run of the agent and of a peer session, at every stream and in both directions, what
the destination leg has accepted is a prefix of what the source leg has delivered behind the bind
reply. -/
theorem relays_keep_the_bytes {cfgA : Agent.Cfg} {a : Agent.App}
    {trA : List (Agent.App × Agent.Label)} {cfg : Cfg} {tr : List (Sess × Label)}
    (ha : Trace (Agent.step cfgA) (Agent.Init cfgA) trA a) (hs : Trace (step cfg) Init tr s) :
    (∀ st ∈ a.records, st.relay.s.b.acc <+: st.carried.getD [] ∧
      st.relay.s.a.acc <+: st.relay.s.b.rd) ∧
    s.relay.s.b.acc <+: s.carried.getD [] ∧ s.relay.s.a.acc <+: s.relay.s.b.rd :=
  ⟨fun st hst => (Agent.carried_of_trace ha st hst).accepted, (carried_of_trace hs).accepted⟩

theorem relays_keep_the_bytes_small : ∃ (a : Agent.App) (s : Sess),
    ((∀ st ∈ a.records, st.relay.s.b.acc <+: st.carried.getD [] ∧
      st.relay.s.a.acc <+: st.relay.s.b.rd) ∧
    s.relay.s.b.acc <+: s.carried.getD [] ∧ s.relay.s.a.acc <+: s.relay.s.b.rd) ∧
    (∃ st ∈ a.records, st.relay.s.b.acc = [5, 6]) ∧ s.relay.s.b.acc = [5, 6, 7] := by
  obtain ⟨trA, a, ha, hacc⟩ := exists_trace
    (Agent.step { tunnelId := [97], agentSecret := [98] }) (Agent.Init _)
    (s := .tmAgentConnect { tunnelId := [97], agentSecret := [98] } {} {}) ⟨{}, [], rfl⟩
    [.ctlConnected true {}, .ctlRead 0 [1, 2, 0, 0, 0, 0, 0, 0, 0, 0] [],
      .ctlRead 0 [1, 4, 0, 0, 0, 0, 0, 0, 0, 0] [],
      .ctlRead 0 [1, 8, 0, 0, 0, 0, 0, 0, 0, 7] [{ ssl := {} }],
      .stream 0 (.connected true) true, .stream 0 (.ready .ok) true,
      .stream 0 (.preRead [1, 12, 0, 0, 0, 0, 0, 0, 0, 7, 5, 6] .ok {}) true,
      .stream 0 (.relay (.connect true)) true, .stream 0 (.relay (.run .ok)) true]
    (fun r => ∃ st ∈ r.2.records, st.relay.s.b.acc = [5, 6]) (by decide)
  obtain ⟨tr, s, hs, hacc'⟩ := exists_trace (step { tunnelId := [97], token := [98] }) Init rfl
    [.connected true true true, .ready true, .preRead [1, 2, 0, 0, 0, 0, 0, 0, 0, 0] .ok [] true,
      .preRead [1, 20, 0, 0, 0, 0, 0, 0, 0, 0, 1, 12, 0, 0, 0, 0, 0, 0, 0, 0, 5, 6] .ok [] true,
      .read .a [7] .ok]
    (fun r => r.2.relay.s.b.acc = [5, 6, 7]) (by decide)
  exact ⟨a, s, relays_keep_the_bytes ha hs, hacc, hacc'⟩

end TunnelMate.Peer
