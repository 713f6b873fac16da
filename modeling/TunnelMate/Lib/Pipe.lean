import Mathlib.Data.List.Basic

/-!
# A pipe with a queue

What a relay does in one direction, in its own terms.
-/

namespace TunnelMate

open List

structure Pipe (α : Type*) where
  rd : List α
  acc : List α
  queue : List α
  slice : ℕ
  live : Bool

namespace Pipe

variable {α : Type*} {p q : Pipe α}

def Ok (p : Pipe α) : Prop :=
  p.acc <+: p.rd ∧ p.slice ≤ p.queue.length
    ∧ (p.live = true → p.acc ++ p.queue.drop p.slice = p.rd)

inductive Step : Pipe α → Pipe α → Prop
  /-- A chunk is read and accepted at once: only when nothing waits before it. -/
  | pass {p : Pipe α} (d : List α) : p.live = true → p.queue = [] →
      Step p { p with rd := p.rd ++ d, acc := p.acc ++ d }
  | enqueue {p : Pipe α} (d : List α) :
      Step p { p with rd := p.rd ++ d, queue := p.queue ++ d }
  | send {p : Pipe α} (n : ℕ) : p.live = true → p.slice = 0 → n ≤ p.queue.length →
      Step p { p with acc := p.acc ++ p.queue.take n, slice := n }
  | shift {p : Pipe α} : Step p { p with queue := p.queue.drop p.slice, slice := 0 }
  /-- The pipe breaks: it keeps or drops its queue, and may have read a last chunk. -/
  | fail {p : Pipe α} (d w : List α) : p.slice ≤ w.length →
      Step p { p with rd := p.rd ++ d, queue := w, live := false }

lemma Step.ok (h : Step p q) (hp : p.Ok) : q.Ok := by
  obtain ⟨hpre, hlen, heq⟩ := hp
  cases h with
  | pass d hl hq =>
    have h := heq hl
    simp only [hq, drop_nil, append_nil] at h
    refine ⟨by simp [h], hlen, fun _ => ?_⟩
    simp [hq, h]
  | enqueue d =>
    refine ⟨hpre.trans (prefix_append _ _), ?_, fun hl => ?_⟩
    · simp only [length_append]
      omega
    · simp only [drop_append_of_le_length hlen, ← append_assoc, heq hl]
  | send n hl hs hn =>
    have h := heq hl
    rw [hs, drop_zero] at h
    have hall : (p.acc ++ p.queue.take n) ++ p.queue.drop n = p.rd := by
      rw [append_assoc, take_append_drop, h]
    exact ⟨⟨_, hall⟩, hn, fun _ => hall⟩
  | shift =>
    exact ⟨hpre, Nat.zero_le _, fun hl => by simpa using heq hl⟩
  | fail d w hw =>
    exact ⟨hpre.trans (prefix_append _ _), hw, fun hl => by simp at hl⟩

lemma Ok.acc_append_queue (h : p.Ok) (hl : p.live = true) (hs : p.slice = 0) :
    p.acc ++ p.queue = p.rd := by
  have := h.2.2 hl
  rwa [hs, drop_zero] at this

end Pipe

end TunnelMate
