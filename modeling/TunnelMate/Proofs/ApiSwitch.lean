import TunnelMate.Proofs.ApiOrphans

/-!
# Enabling and disabling

`update_tunnel` compares what is asked for with the row, and calls the broker only if they differ.
-/

namespace TunnelMate.Api

open Bool hiding not_or true_and
open List Option Table Wait

variable {cfg : Settings} {cap : Bytes → Bytes} {digest : Bytes → Digest} {s s' : State}
  {i : Label} {id : Bytes} {u v : Task} {t : Turn} {ts : List Task} {rate : RateWindow} {up : Bool}

/-! ## The row of an id -/

section Rows

variable {db : List Row} {j : Bytes} {f : Row → Row}

def flags (id : Bytes) (db : List Row) : Option (Bool × Bool) :=
  (findRow id db).map fun r => (r.deleted, r.enabled)

lemma flags_updateRow (hf : ∀ r, (f r).tunnelId = r.tunnelId)
    (h : j = id → ∀ r, (f r).deleted = r.deleted ∧ (f r).enabled = r.enabled) :
    flags id (updateRow j f db) = flags id db := by
  rw [flags, findRow_updateRow hf, Option.map_map, flags]
  congr 1
  funext r
  simp only [Function.comp]
  split_ifs with hj
  · rw [(h hj r).1, (h hj r).2]
  · rfl

lemma flags_set {g : Bool × Bool → Bool × Bool} (hf : ∀ r, (f r).tunnelId = r.tunnelId)
    (hg : ∀ r, ((f r).deleted, (f r).enabled) = g (r.deleted, r.enabled)) :
    flags id (updateRow id f db) = (flags id db).map g := by
  rw [flags, findRow_updateRow hf, Option.map_map, flags, Option.map_map]
  congr 1
  funext r
  simp only [Function.comp, if_true, hg]

lemma flags_mark : flags id (updateRow j markDeleted db) =
    if j = id then (flags id db).map fun _ => (true, false) else flags id db := by
  split_ifs with hj
  · subst hj
    exact flags_set (f := markDeleted) (fun _ => rfl) fun _ => rfl
  · exact flags_updateRow (fun _ => rfl) fun he => absurd he hj

lemma flags_insert {row : Row} (hn : ∀ r ∈ db, r.tunnelId ≠ row.tunnelId) : flags id (db ++ [row]) =
      if row.tunnelId = id then some (row.deleted, row.enabled) else flags id db := by
  unfold flags findRow
  split_ifs with hi
  · have : db.find? (fun r => decide (r.tunnelId = id)) = none := by
      rw [find?_eq_none]
      intro r hr
      rw [← hi]
      simpa using hn r hr
    simp [this, hi]
  · simp [hi]

end Rows

/-! ## Calls on a tunnel -/

def Wait.exclusive (id : Bytes) : Wait → Bool
  | .create _ _ j _ => j = id
  | .undo j => j = id
  | .update j _ => j = id
  | _ => false

def Wait.concerns (id : Bytes) (w : Wait) : Bool := w.exclusive id || w.targets.contains id

def Wait.makes (id : Bytes) : Wait → Bool
  | .create _ _ j _ => j = id
  | .undo j => j = id
  | _ => false

/-- How a call that succeeds leaves the tunnel switched. -/
def Wait.puts (id : Bytes) : Wait → Option Bool
  | .create _ _ j _ => if j = id then some true else none
  | .update j e => if j = id then some e else none
  | _ => none

/-- Each call on the tunnel that is executed is answered; an update of it arrives when none is in
progress, and none arrives during an update; its id is drawn once, and neither side is restarted. -/
def settled (id : Bytes) (s : State) : Label → Bool
  | .request (.createTunnel _ _ _ j _) =>
    j ≠ id || (findRow id s.db).isNone && s.tasks.all fun u => !u.wait.concerns id
  | .request (.updateTunnel _ j _) => j ≠ id || s.tasks.all fun u => !u.wait.concerns id
  | .request (.deleteTunnel _ j) => j ≠ id || s.tasks.all fun u => !u.wait.exclusive id
  | .reap => (expiredIds s.now s.db).all (· ≠ id) || s.tasks.all fun u => !u.wait.exclusive id
  | .resume c o _ => s.tasks.all fun u => u.ref ≠ c || !u.wait.concerns id || o = .answered ||
      (s.answers.lookup c).isNone && s.sent.all (·.ref ≠ c)
  | .brokerRestart | .apiRestart => false
  | _ => true

def Has (id : Bytes) (e : Bool) (rs : List Record) : Prop := ∃ x ∈ rs, x.id = id ∧ x.enabled = e

def Settling (id : Bytes) (s : State) (u : Task) : Prop :=
  (∃ e, u.wait = .update id e) ∧ s.answers.lookup u.ref = some (.reply .ok) ∨
  u.wait.targets.head? = some id ∧ (s.answers.lookup u.ref).isSome = true

structure Switched (id : Bytes) (s : State) : Prop where
  running : ∀ u, u ∈ s.tasks ∨ u ∈ s.sent → u.wait.restoring = false
  sent : ∀ u ∈ s.sent, u.wait.concerns id = true → u ∈ s.tasks
  alone : ∀ u ∈ s.tasks, u.wait.exclusive id = true →
    ∀ v ∈ s.tasks, v.wait.concerns id = true → v = u
  fresh : ∀ u ∈ s.tasks, u.wait.makes id = true → flags id s.db = none
  named : ∀ u ∈ s.tasks, id ∈ u.wait.targets → flags id s.db ≠ none
  live : ∀ u ∈ s.tasks, ∀ e, u.wait = .update id e → ∃ d, flags id s.db = some (false, d)
  put : ∀ u ∈ s.tasks, ∀ e, u.wait.puts id = some e → ∀ a, s.answers.lookup u.ref = some a →
    (∃ msg, a = .reply (.error msg)) ∨ Has id e s.broker.records
  gone : ∀ u ∈ s.tasks, u.wait.targets.head? = some id → ∀ a, s.answers.lookup u.ref = some a →
    a = .reply .ok ∨ a = .reply (.error "tunnel not found")
  agree : ∀ e, flags id s.db = some (false, e) →
    (∃ u ∈ s.tasks, Settling id s u) ∨ Has id e s.broker.records

variable {w : Wait}

lemma Wait.puts_update (e : Bool) : (update id e).puts id = some e := if_pos rfl

lemma Wait.exclusive_of_puts {e : Bool} (h : w.puts id = some e) : w.exclusive id = true := by
  cases w <;> simp_all [puts, exclusive]

lemma Wait.concerns_of_exclusive (h : w.exclusive id = true) : w.concerns id = true := by
  rw [concerns, h]
  rfl

lemma Wait.not_exclusive (h : w.concerns id = false) : w.exclusive id = false :=
  (or_eq_false_iff.1 h).1

lemma Wait.concerns_of_targets (h : id ∈ w.targets) : w.concerns id = true := by
  simp [concerns, h]

lemma Wait.exclusive_of_targets (h : id ∈ w.targets) : w.exclusive id = false := by
  cases w <;> first | rfl | cases h

lemma Wait.exclusive_of_makes (h : w.makes id = true) : w.exclusive id = true := by
  cases w <;> first | exact h | cases h

lemma Settling.concerns (h : Settling id s u) : u.wait.concerns id = true := by
  rcases h with ⟨⟨e, hw⟩, -⟩ | ⟨hw, -⟩
  · rw [hw]
    exact concerns_of_exclusive (exclusive_of_puts (puts_update e))
  · exact concerns_of_targets (mem_of_mem_head? hw)

namespace Switched

section

variable (h : Switched id s)
include h

lemma turn (hb : Base digest s) (ht : ts ⊆ s.tasks)
    (hst : ∀ u ∈ s.sent, u ∈ s.tasks → u.wait.concerns id = true → u ∈ ts)
    (hdb : (∃ u ∈ ts, u.wait.exclusive id = true) → flags id t.db = flags id s.db)
    (hnamed : flags id s.db ≠ none → flags id t.db ≠ none)
    (hrun : ∀ w, t.wait = some w → w.restoring = false)
    (hwait : ∀ w, t.wait = some w → w.concerns id = true → (∀ u ∈ ts, u.wait.exclusive id = false) ∧
      (w.exclusive id = true → ∀ u ∈ ts, u.wait.concerns id = false) ∧
      (w.makes id = true → flags id t.db = none) ∧ (id ∈ w.targets → flags id t.db ≠ none) ∧
      ∀ e, w = .update id e → ∃ d, flags id t.db = some (false, d))
    (hagree : ∀ e, flags id t.db = some (false, e) →
      (∃ u ∈ ts, Settling id s u) ∨ Has id e s.broker.records) :
    Switched id ((s.withTasks ts rate up).turn t) where
  running := by
    intro u hu
    rcases calls_turn.1 hu with ⟨w, hw, rfl⟩ | hu
    · exact hrun w hw
    · exact h.running u (hu.imp_left (ht ·))
  sent := by
    intro u hu hc
    rcases mem_turn_sent.1 hu with ⟨w, hw, rfl⟩ | hu
    · exact mem_turn_tasks.2 (.inl ⟨w, hw, rfl⟩)
    · exact mem_turn_tasks.2 (.inr (hst u hu (h.sent u hu hc) hc))
  alone := by
    intro u hu he v hv hc
    rcases mem_turn_tasks.1 hu with ⟨w, hw, rfl⟩ | hu <;>
      rcases mem_turn_tasks.1 hv with ⟨w', hw', rfl⟩ | hv
    · rw [hw] at hw'
      rw [some.inj hw']
    · have := (hwait w hw (concerns_of_exclusive he)).2.1 he v hv
      rw [hc] at this
      cases this
    · have := (hwait w' hw' hc).1 u hu
      rw [he] at this
      cases this
    · exact h.alone u (ht hu) he v (ht hv) hc
  fresh := by
    intro u hu hm
    rw [turn_db]
    rcases mem_turn_tasks.1 hu with ⟨w, hw, rfl⟩ | hu
    · exact (hwait w hw (concerns_of_exclusive (exclusive_of_makes hm))).2.2.1 hm
    · rw [hdb ⟨u, hu, exclusive_of_makes hm⟩]
      exact h.fresh u (ht hu) hm
  named := by
    intro u hu hm
    rw [turn_db]
    rcases mem_turn_tasks.1 hu with ⟨w, hw, rfl⟩ | hu
    · exact (hwait w hw (concerns_of_targets hm)).2.2.2.1 hm
    · exact hnamed (h.named u (ht hu) hm)
  live := by
    intro u hu e hm
    rw [turn_db]
    rcases mem_turn_tasks.1 hu with ⟨w, hw, rfl⟩ | hu
    · obtain rfl := hm
      exact (hwait _ hw (concerns_of_exclusive (exclusive_of_puts (puts_update e)))).2.2.2.2 e rfl
    · rw [hdb ⟨u, hu, hm ▸ exclusive_of_puts (puts_update e)⟩]
      exact h.live u (ht hu) e hm
  put := by
    intro u hu e hw a hl
    obtain ⟨hu, hl⟩ := hb.old hu hl
    rw [turn_broker]
    exact h.put u (ht hu) e hw a hl
  gone := by
    intro u hu hw a hl
    obtain ⟨hu, hl⟩ := hb.old hu hl
    exact h.gone u (ht hu) hw a hl
  agree := by
    intro e he
    rw [turn_db] at he
    rw [turn_broker]
    refine (hagree e he).imp_left ?_
    rintro ⟨u, hu, hset⟩
    refine ⟨u, mem_turn_tasks.2 (.inr hu), ?_⟩
    unfold Settling
    rw [turn_answers]
    exact hset

lemma frame (hb : Base digest s) (ht : ts ⊆ s.tasks)
    (hkeep : ∀ u ∈ s.tasks, u.wait.concerns id = true → u ∈ ts)
    (hdb : flags id t.db = flags id s.db)
    (hw : ∀ w, t.wait = some w → w.restoring = false ∧ w.concerns id = false) :
    Switched id ((s.withTasks ts rate up).turn t) := by
  refine h.turn hb ht (fun u _ hu hc => hkeep u hu hc) (fun _ => hdb)
    (fun hne => hdb ▸ hne) (fun w hwt => (hw w hwt).1) (fun w hwt hc => ?_) fun e he => ?_
  · rw [(hw w hwt).2] at hc
    cases hc
  · rw [hdb] at he
    refine (h.agree e he).imp_left ?_
    rintro ⟨u, hu, hset⟩
    exact ⟨u, hkeep u hu hset.concerns, hset⟩

lemma start (hb : Base digest s)
    (hrun : w.restoring = false) (hex : ∀ u ∈ s.tasks, u.wait.exclusive id = false)
    (halone : w.exclusive id = true → ∀ u ∈ s.tasks, u.wait.concerns id = false)
    (hmakes : w.makes id = true → flags id s.db = none)
    (hnamed : id ∈ w.targets → flags id s.db ≠ none)
    (hlive : ∀ e, w = .update id e → ∃ d, flags id s.db = some (false, d)) :
    Switched id ({ s with rate := rate }.turn { db := s.db, wait := some w }) := by
  refine h.turn hb (.refl _) (fun _ _ hu _ => hu) (fun _ => rfl)
    (fun hne => hne) (fun w' hw' => ?_) (fun w' hw' _ => ?_) fun e he => h.agree e he <;>
    cases hw'
  · exact hrun
  · exact ⟨hex, halone, hmakes, hnamed, hlive⟩

omit h in
lemma flags_of_present (hb : Base digest s) (h : Present id s.db) :
    ∃ d, flags id s.db = some (false, d) := by
  obtain ⟨row, hrow, hi, hd⟩ := h
  have hf : findRow id s.db = some row := by
    cases hf : findRow id s.db with
    | none => exact absurd hi (findRow_none.1 hf row hrow)
    | some =>
      obtain ⟨hm, hi'⟩ := findRow_some hf
      rw [inj_on_of_nodup_map hb.rows hm hrow (hi'.trans hi.symm)]
  exact ⟨row.enabled, by rw [flags, hf, map_some, hd]⟩

lemma request {q : Request} (hb : Base digest s)
    (hq : Handled cfg cap s.now s.db q t) (hok : settled id s (.request q) = true) :
    Switched id ({ s with rate := rate }.turn t) := by
  have other : ∀ {db : List Row} {w : Option Wait} {resp : Option Response} {st : Bool},
      flags id db = flags id s.db →
      (∀ w', w = some w' → w'.restoring = false ∧ w'.concerns id = false) →
      Switched id ({ s with rate := rate }.turn ⟨db, w, resp, st⟩) := fun hdb hw =>
    h.frame hb (.refl _) (fun _ hu _ => hu) hdb hw
  cases hq with
  | refused => exact other rfl (by simp)
  | renewed _ => exact other (flags_updateRow (fun _ => rfl) fun _ _ => ⟨rfl, rfl⟩) (by simp)
  | begins hbeg =>
    cases hbeg with
    | @create body ip j secret blocked _ =>
      by_cases hj : j = id
      · subst hj
        obtain ⟨hrow, hno⟩ : (findRow j s.db).isNone = true ∧
            ∀ u ∈ s.tasks, u.wait.concerns j = false := by simpa [settled] using hok
        refine h.start hb rfl (fun u hu => not_exclusive (hno u hu)) (fun _ => hno)
          (fun _ => ?_) (by simp [targets]) (by simp)
        rw [flags, isNone_iff_eq_none.1 hrow]
        rfl
      · exact other rfl fun w hw => by
          cases hw
          exact ⟨rfl, by simp [concerns, exclusive, targets, hj]⟩
    | @update caller j e _ hr =>
      by_cases hj : j = id
      · subst hj
        have hno : ∀ u ∈ s.tasks, u.wait.concerns j = false := by simpa [settled] using hok
        exact h.start hb rfl (fun u hu => not_exclusive (hno u hu)) (fun _ => hno)
          (by simp [makes]) (by simp [targets])
          fun _ _ => flags_of_present hb (present_of_caller hr)
      · exact other rfl fun w hw => by
          cases hw
          exact ⟨rfl, by simp [concerns, exclusive, targets, hj]⟩
    | @delete caller j _ hr =>
      by_cases hj : j = id
      · subst hj
        have hno : ∀ u ∈ s.tasks, u.wait.exclusive j = false := by simpa [settled] using hok
        obtain ⟨d, hd⟩ := flags_of_present hb (present_of_caller hr)
        exact h.start hb rfl hno (by simp [exclusive]) (by simp [makes])
          (fun _ => by simp [hd]) (by simp)
      · exact other rfl fun w hw => by
          cases hw
          exact ⟨rfl, by simp [concerns, exclusive, targets, Ne.symm hj]⟩
    | rotate _ =>
      exact other rfl fun w hw => by
        cases hw
        exact ⟨rfl, by simp [concerns, exclusive, targets]⟩

lemma reap {j : Bytes} {rest : List Bytes} (hb : Base digest s)
    (he : expiredIds s.now s.db = j :: rest) (hok : settled id s .reap = true) :
    Switched id (s.turn { db := s.db, wait := some (.reap j rest) }) := by
  by_cases hj : id ∈ j :: rest
  · have hno : ∀ u ∈ s.tasks, u.wait.exclusive id = false := by
      rcases or_eq_true_iff.1 hok with hall | hall
      · rw [he] at hall
        exact absurd rfl (of_decide_eq_true (all_eq_true.1 hall id hj))
      · simpa using hall
    have hnamed : flags id s.db ≠ none := by
      obtain ⟨row, hrow, hi⟩ := mem_map.1 (he ▸ hj : id ∈ expiredIds s.now s.db)
      rw [flags, ne_eq, map_eq_none_iff, findRow_none]
      exact fun hall => hall row (mem_filter.1 hrow).1 hi
    exact h.start hb rfl hno (by simp [exclusive]) (by simp [makes]) (fun _ => hnamed)
      (by simp)
  · refine h.frame hb (.refl _) (fun _ hu _ => hu) rfl fun w hw => ?_
    cases hw
    exact ⟨rfl, by simpa [concerns, exclusive, targets] using hj⟩

end

/-! ### The broker executes a call -/

section Exec

variable {b : Broker} {k : BrokerCall} {rs : List Record} {a : Answer} {e : Bool}

lemma has_effect (h : Effect b k rs a) (hd : k ≠ .deleteTunnel id)
    (hs : ∀ v : Bool, k ≠ if v then .enableTunnel id else .disableTunnel id)
    (hx : Has id e b.records) : Has id e rs := by
  obtain ⟨x, hx, hid, he⟩ := hx
  cases h with
  | created => exact ⟨x, mem_cons_of_mem _ hx, hid, he⟩
  | @deleted =>
    refine ⟨x, mem_filter.2 ⟨hx, ?_⟩, hid, he⟩
    simp only [ne_eq, decide_not, not_eq_true', decide_eq_false_iff_not]
    rintro rfl
    exact hd (by rw [hid])
  | @switched _ j v hk =>
    refine ⟨x, mem_map.2 ⟨x, hx, if_neg fun hj => ?_⟩, hid, he⟩
    exact hs v (by rw [hk, ← hj, hid])
  | @rotated cred =>
    refine ⟨_, mem_map.2 ⟨x, hx, rfl⟩, ?_⟩
    split_ifs
    · exact ⟨(setHmac_id _ _ _).trans hid, by cases cred <;> exact he⟩
    · exact ⟨hid, he⟩
  | _ => exact ⟨x, hx, hid, he⟩

lemma answer_delete (h : Effect b (.deleteTunnel id) rs a) :
    a = .reply .ok ∨ a = .reply (.error "tunnel not found") := by
  generalize hk : BrokerCall.deleteTunnel id = k at h
  cases h with
  | deleted | switched => exact .inl rfl
  | notDeleted => exact .inr rfl
  | @notSwitched _ j v msg he => cases v <;> simp [← hk] at he
  | _ => cases hk

lemma answer_switch {v : Bool}
    (h : Effect b (if v then .enableTunnel id else .disableTunnel id) rs a)
    (hx : Has id e b.records) :
    (∃ msg, a = .reply (.error msg)) ∧ rs = b.records ∨ a = .reply .ok ∧ Has id v rs := by
  generalize hk : (if v then BrokerCall.enableTunnel id else .disableTunnel id) = k at h
  cases h with
  | @switched _ j v' =>
    obtain ⟨x, hx, hid, -⟩ := hx
    have : v' = v ∧ j = id := by
      cases v <;> cases v' <;> simp_all
    obtain ⟨rfl, rfl⟩ := this
    exact .inr ⟨rfl, _, mem_map.2 ⟨x, hx, if_pos hid⟩, hid, rfl⟩
  | notSwitched => exact .inl ⟨⟨_, rfl⟩, rfl⟩
  | _ =>
    cases v <;> cases hk

lemma call_delete (h : w.call = .deleteTunnel id) : w = .undo id ∨ w.targets.head? = some id := by
  cases w with
  | undo j => exact .inl (congrArg _ (BrokerCall.deleteTunnel.inj h))
  | delete j | reap j rest => exact .inr (congrArg some (BrokerCall.deleteTunnel.inj h))
  | update j v => cases v <;> cases h
  | _ => cases h

lemma call_of_head (h : w.targets.head? = some id) : w.call = .deleteTunnel id := by
  cases w with
  | delete j | reap j rest => exact congrArg BrokerCall.deleteTunnel (some.inj h)
  | _ => cases h

lemma call_switch {v : Bool} (hr : w.restoring = false)
    (h : w.call = if v then .enableTunnel id else .disableTunnel id) : w = .update id v := by
  cases w with
  | update j v' => cases v <;> cases v' <;> simp_all [call]
  | restoreDisable _ _ => cases hr
  | _ =>
    cases v <;> cases h

lemma executed (h : Switched id s) (hb : Base digest s) (hu : u ∈ s.sent)
    (hput : ∀ v ∈ s.tasks, v ≠ u → ∀ e, v.wait.puts id = some e → Has id e s.broker.records →
      Has id e b.records)
    (hpu : ∀ e, u.wait.puts id = some e → (∃ msg, a = .reply (.error msg)) ∨ Has id e b.records)
    (hgu : u.wait.targets.head? = some id → a = .reply .ok ∨ a = .reply (.error "tunnel not found"))
    (hagree : ∀ e, flags id s.db = some (false, e) →
      (∃ v ∈ s.tasks, Settling id (s.executed u b a) v) ∨ Has id e b.records) :
    Switched id (s.executed u b a) where
  running v hv := h.running v (hv.imp_right fun hv => (mem_del.1 hv).1)
  sent v hv := h.sent v (mem_del.1 hv).1
  alone := h.alone
  fresh := h.fresh
  named := h.named
  live := h.live
  put := by
    intro v hv e hw a' hl
    rw [hb.answer_exec hu hv] at hl
    split_ifs at hl with hvu
    · subst hvu
      cases hl
      exact hpu e hw
    · exact (h.put v hv e hw a' hl).imp_right (hput v hv hvu e hw)
  gone := by
    intro v hv hw a' hl
    rw [hb.answer_exec hu hv] at hl
    split_ifs at hl with hvu
    · subst hvu
      cases hl
      exact hgu hw
    · exact h.gone v hv hw a' hl
  agree := hagree

lemma settling_kept (hb : Base digest s) (hu : u ∈ s.sent) (h : Settling id s v) :
    Settling id (s.executed u b a) v := by
  rcases h with ⟨hw, hl⟩ | ⟨hw, hl⟩
  · exact .inl ⟨hw, hb.answer_kept hu hl⟩
  · obtain ⟨x, hx⟩ := isSome_iff_exists.1 hl
    exact .inr ⟨hw, by rw [hb.answer_kept hu hx]; rfl⟩

lemma exec_undo (h : Switched id s) (hb : Base digest s) (hu : u ∈ s.sent)
    (hw : u.wait = .undo id) : Switched id (s.executed u b a) := by
  have hex : u.wait.exclusive id = true := by simp [hw, exclusive]
  have hut := h.sent u hu (concerns_of_exclusive hex)
  have hf := h.fresh u hut (by simp [hw, makes])
  refine h.executed hb hu (fun v hv hne e hv' => absurd ?_ hne) (by simp [hw, puts])
    (by simp [hw, targets]) (by simp [hf])
  exact h.alone u hut hex v hv (concerns_of_exclusive (exclusive_of_puts hv'))

lemma exec_delete (h : Switched id s) (hb : Base digest s) (hu : u ∈ s.sent)
    (hw : u.wait.targets.head? = some id)
    (ha : a = .reply .ok ∨ a = .reply (.error "tunnel not found")) :
    Switched id (s.executed u b a) := by
  have hm : id ∈ u.wait.targets := mem_of_mem_head? hw
  have hut := h.sent u hu (concerns_of_targets hm)
  refine h.executed hb hu (fun v hv hvu e hv' => absurd ?_ hvu.symm)
    (fun e he => absurd (exclusive_of_puts he) ?_) (fun _ => ha)
    fun e _ => .inl ⟨u, hut, .inr ⟨hw, ?_⟩⟩
  · exact h.alone v hv (exclusive_of_puts hv') u hut (concerns_of_targets hm)
  · simp [exclusive_of_targets hm]
  · rw [hb.answer_exec hu hut, if_pos rfl]
    rfl

lemma exec_switch {e : Bool} (h : Switched id s) (hb : Base digest s) (hu : u ∈ s.sent)
    (hw : u.wait = .update id e)
    (he : Effect s.broker (if e then .enableTunnel id else .disableTunnel id) b.records a) :
    Switched id (s.executed u b a) := by
  have hex : u.wait.exclusive id = true := by simp [hw, exclusive]
  have hut := h.sent u hu (concerns_of_exclusive hex)
  have only : ∀ v ∈ s.tasks, v.wait.concerns id = true → v = u := h.alone u hut hex
  obtain ⟨d, hd⟩ := h.live u hut e hw
  -- nothing else is in progress, so the row and the tunnel agree
  have hx : Has id d s.broker.records := by
    refine (h.agree d hd).resolve_left ?_
    rintro ⟨v, hv, hset⟩
    obtain rfl := only v hv hset.concerns
    have hn := hb.unanswered hu
    rcases hset with ⟨-, hl⟩ | ⟨-, hl⟩ <;> rw [hn] at hl <;> cases hl
  have hsw := answer_switch he hx
  refine h.executed hb hu (fun v hv hne e' hv' => ?_) (fun e' hw' => ?_)
    (by simp [hw, targets]) fun e' he' => ?_
  · exact absurd (only v hv (concerns_of_exclusive (exclusive_of_puts hv'))) hne
  · obtain rfl : e = e' := some.inj ((puts_update e).symm.trans (hw ▸ hw'))
    exact hsw.imp And.left And.right
  · rcases hsw with ⟨-, hrs⟩ | ⟨rfl, -⟩
    · rw [hd] at he'
      obtain ⟨-, rfl⟩ := Prod.mk.inj (some.inj he')
      exact .inr (hrs ▸ hx)
    · refine .inl ⟨u, hut, .inl ⟨⟨e, hw⟩, ?_⟩⟩
      rw [hb.answer_exec hu hut, if_pos rfl]

lemma exec (h : Switched id s) (hb : Base digest s) (hu : u ∈ s.sent)
    (he : Effect s.broker u.wait.call b.records a) : Switched id (s.executed u b a) := by
  have hrun := h.running u (.inr hu)
  by_cases hd : u.wait.call = .deleteTunnel id
  · rcases call_delete hd with hw | hw
    · exact h.exec_undo hb hu hw
    · exact h.exec_delete hb hu hw (answer_delete (hd ▸ he))
  by_cases hsw : ∃ e : Bool, u.wait.call = if e then .enableTunnel id else .disableTunnel id
  · obtain ⟨e, hsw⟩ := hsw
    exact h.exec_switch hb hu (call_switch hrun hsw) (hsw ▸ he)
  -- any other call leaves the tunnel as it is
  have hhas : ∀ e, Has id e s.broker.records → Has id e b.records := fun e =>
    has_effect he hd fun v hv => hsw ⟨v, hv⟩
  refine h.executed hb hu (fun _ _ _ e _ => hhas e) (fun e hp => ?_) (fun hw => ?_) fun e hfl => ?_
  · cases hw : u.wait with
    | create =>
      rw [hw] at he hp
      obtain ⟨rfl, ⟨⟩⟩ := ite_none_right_eq_some.1 hp
      refine he.create_cases.imp_right ?_
      rintro ⟨y, _, _, hy, hrs, -⟩
      exact ⟨y, hrs ▸ mem_cons_self, hy.id, hy.enabled⟩
    | update =>
      rw [hw] at hsw hp
      obtain ⟨rfl, -⟩ := ite_none_right_eq_some.1 hp
      exact absurd ⟨_, rfl⟩ hsw
    | _ => simp [hw, puts] at hp
  · exact absurd (call_of_head hw) hd
  · refine (h.agree e hfl).imp ?_ (hhas e)
    rintro ⟨v, hv, hset⟩
    exact ⟨v, hv, settling_kept hb hu hset⟩

end Exec

/-! ### A coroutine goes on -/

section Resume

variable {o : Outcome} {stored : Bool} {r : Except BrokerExc Answer}

lemma done_frame {now : ℕ} {db : List Row} (hd : Done cfg cap now db r w t)
    (hr : w.restoring = false) (hc : w.concerns id = false) : flags id t.db = flags id db ∧
      ∀ w', t.wait = some w' → w'.restoring = false ∧ w'.concerns id = false := by
  obtain ⟨hex, htg⟩ := or_eq_false_iff.1 hc
  cases hd with
  | created _ _ hf =>
    refine ⟨(flags_insert hf).trans (if_neg ?_), by simp⟩
    simpa [exclusive, newRow] using hex
  | @notStored _ _ j _ _ _ _ _ _ _ _ =>
    refine ⟨rfl, fun w' hw' => ?_⟩
    cases hw'
    exact ⟨rfl, by simpa [concerns, exclusive, targets] using hex⟩
  | updated _ _ =>
    refine ⟨flags_updateRow (fun _ => rfl) fun hj => ?_, by simp⟩
    simp [exclusive, hj] at hex
  | deleted _ _ | reaped =>
    refine ⟨flags_updateRow (fun _ => rfl) fun hj => ?_, by simp⟩
    simp [targets, hj] at htg
  | reapedNext =>
    simp only [targets, contains_eq_mem, mem_cons, not_or, decide_eq_false_iff_not] at htg
    refine ⟨flags_updateRow (fun _ => rfl) fun hj => absurd hj.symm htg.1, fun w' hw' => ?_⟩
    cases hw'
    exact ⟨rfl, by simpa [concerns, exclusive, targets] using htg.2⟩
  | rotated _ _ =>
    refine ⟨flags_updateRow (fun row => row.setHmac_tunnelId _ _) fun _ row => ?_, by simp⟩
    exact ⟨row.setHmac_deleted _ _, by cases ‹Cred› <;> rfl⟩
  | restored hre | restores hre _ => exact absurd (hr.symm.trans hre) (by simp)
  | disables => cases hr
  | _ =>
    exact ⟨rfl, by simp⟩

lemma result_error {msg : String} {a : Answer} :
    o.result (some (.reply (.error msg))) ≠ some (.ok a) := by
  cases o <;> simp [Outcome.result]

lemma answered {e : Bool} {a : Answer} (h : Switched id s) (hu : u ∈ s.tasks)
    (hw : u.wait = .update id e) (hr : o.result (s.answers.lookup u.ref) = some (.ok a)) :
    Has id e s.broker.records := by
  refine (h.put u hu e (hw ▸ puts_update e) a (result_ok hr)).resolve_left ?_
  rintro ⟨msg, rfl⟩
  rw [result_ok hr] at hr
  exact result_error hr

lemma settled_resume (hb : Base digest s) (hu : u ∈ s.tasks) (hc : u.wait.concerns id = true)
    (hr : o.result (s.answers.lookup u.ref) = some r)
    (hok : settled id s (.resume u.ref o stored) = true) :
    u ∉ s.sent ∧ (o = .answered ∨ s.answers.lookup u.ref = none) := by
  have := all_eq_true.1 hok u hu
  simp only [ne_eq, not_true_eq_false, decide_false, Bool.false_or, hc, Bool.not_true,
    or_eq_true, decide_eq_true_eq, and_eq_true, isNone_iff_eq_none,
    List.all_eq_true] at this
  rcases this with rfl | ⟨hn, hs⟩
  · obtain ⟨a, ha, -⟩ := map_eq_some_iff.1 hr
    exact ⟨hb.not_sent ha, .inl rfl⟩
  · exact ⟨fun hm => hs u hm rfl, .inr hn⟩

section Ends

variable (h : Switched id s) (hb : Base digest s) (hu : u ∈ s.tasks) (hns : u ∉ s.sent)

include h hb hu hns

lemma ends (hex : u.wait.exclusive id = true) (hnamed : flags id s.db ≠ none → flags id t.db ≠ none)
    (hw : ∀ w, t.wait = some w → w = .undo id ∧ flags id t.db = none)
    (hagree : ∀ e, flags id t.db = some (false, e) → Has id e s.broker.records) :
    Switched id ((s.resumed u).turn t) := by
  have hno : ∀ v ∈ (s.resumed u).tasks, v.wait.concerns id = false := fun v hv => by
    obtain ⟨hv, hk⟩ := mem_del.1 hv
    refine eq_false_iff.2 fun hc => hk ?_
    exact congrArg Task.ref (h.alone u hu hex v hv hc)
  refine h.turn hb (fun _ hv => (mem_del.1 hv).1)
    (fun v hv hvt _ => hb.mem_resumed hu hvt fun he => hns (he ▸ hv)) ?_ hnamed
    (fun w hwt => by rw [(hw w hwt).1]; rfl) (fun w hwt _ => ?_) fun e he => .inr (hagree e he)
  · rintro ⟨v, hv, hve⟩
    rw [not_exclusive (hno v hv)] at hve
    cases hve
  · obtain ⟨rfl, hfl⟩ := hw w hwt
    exact ⟨fun v hv => not_exclusive (hno v hv), fun _ => hno, fun _ => hfl,
      by simp [targets], by simp⟩

lemma passes (hm : id ∈ u.wait.targets) (hnamed : flags id s.db ≠ none → flags id t.db ≠ none)
    (hw : ∀ w, t.wait = some w → ∃ j rest, w = .reap j rest)
    (hagree : ∀ e, flags id t.db = some (false, e) → flags id s.db = some (false, e) ∧
      ¬ Settling id s u) : Switched id ((s.resumed u).turn t) := by
  have hno : ∀ v ∈ s.tasks, v.wait.exclusive id = false := fun v hv => by
    refine eq_false_iff.2 fun hve => ?_
    obtain rfl := h.alone v hv hve u hu (concerns_of_targets hm)
    rw [exclusive_of_targets hm] at hve
    cases hve
  have hsub : ∀ v ∈ (s.resumed u).tasks, v ∈ s.tasks := fun v hv => (mem_del.1 hv).1
  refine h.turn hb hsub
    (fun v hv hvt _ => hb.mem_resumed hu hvt fun he => hns (he ▸ hv)) ?_ hnamed
    (fun w hwt => ?_) (fun w hwt _ => ?_) fun e he => ?_
  · rintro ⟨v, hv, hve⟩
    rw [hno v (hsub v hv)] at hve
    cases hve
  · obtain ⟨j, rest, rfl⟩ := hw w hwt
    rfl
  · obtain ⟨j, rest, rfl⟩ := hw w hwt
    exact ⟨fun v hv => hno v (hsub v hv), by simp [exclusive], by simp [makes],
      fun _ => hnamed (h.named u hu hm), by simp⟩
  · obtain ⟨hs, hset⟩ := hagree e he
    refine (h.agree e hs).imp_left ?_
    rintro ⟨v, hv, hsv⟩
    exact ⟨v, hb.mem_resumed hu hv (by rintro rfl; exact hset hsv), hsv⟩

lemma marks {j : Bytes} (hm : id ∈ u.wait.targets) (hhead : u.wait.targets.head? = some j)
    (ht : t.db = updateRow j markDeleted s.db)
    (hw : ∀ w, t.wait = some w → ∃ j rest, w = .reap j rest) :
    Switched id ((s.resumed u).turn t) := by
  refine h.passes hb hu hns hm ?_ hw ?_ <;> rw [ht, flags_mark] <;> split_ifs with hj
  · simp
  · exact fun hne => hne
  · intro e he
    obtain ⟨p, -, hp⟩ := map_eq_some_iff.1 he
    cases hp
  · refine fun e he => ⟨he, ?_⟩
    rintro (⟨⟨e, hwu⟩, -⟩ | ⟨hid, -⟩)
    · rw [hwu] at hm
      cases hm
    · exact hj (some.inj (hhead.symm.trans hid))

end Ends

lemma resume (h : Switched id s) (hb : Base digest s) (hu : u ∈ s.tasks)
    (hr : o.result (s.answers.lookup u.ref) = some r) (hd : Done cfg cap s.now s.db r u.wait t)
    (hok : settled id s (.resume u.ref o stored) = true) : Switched id ((s.resumed u).turn t) := by
  have hrun := h.running u (.inl hu)
  cases hc : u.wait.concerns id with
  | false =>
    obtain ⟨hfl, hw⟩ := done_frame hd hrun hc
    refine h.frame hb (fun _ hv => (mem_del.1 hv).1) (fun v hv hcv => ?_) hfl hw
    refine hb.mem_resumed hu hv ?_
    rintro rfl
    cases hc.symm.trans hcv
  | true =>
    obtain ⟨hns, hans⟩ := settled_resume hb hu hc hr hok
    generalize hw : u.wait = w at hd hc hrun
    have hj : w.targets = [] → w.exclusive id = true := fun ht =>
      (or_eq_true_iff.1 hc).resolve_right (by simp [ht])
    have hex : w.targets = [] → u.wait.exclusive id = true := fun ht => hw ▸ hj ht
    have hfresh : w.makes id = true → flags id s.db = none := fun h' => h.fresh u hu (hw ▸ h')
    have htg : w.exclusive id = false → id ∈ u.wait.targets := fun he => by
      rw [hw]
      exact contains_iff_mem.1 ((or_eq_true_iff.1 hc).resolve_left (by simp [he]))
    -- the answer of a call that was executed
    have hans : ∀ a, s.answers.lookup u.ref = some a → o = .answered := fun a ha =>
      hans.resolve_right (by simp [ha])
    cases hd with
    | notCreated _ _ | undone =>
      exact h.ends hb hu hns (hex rfl) (fun hne => hne) (by simp) (by simp [hfresh (hj rfl)])
    | created _ he hf =>
      obtain rfl := of_decide_eq_true (hj rfl)
      refine h.ends hb hu hns (hex rfl) (absurd (hfresh (hj rfl))) (by simp) fun e hfl => ?_
      rw [flags_insert hf] at hfl
      simp only [newRow, if_true, some.injEq, Prod.mk.injEq, true_and] at hfl
      subst hfl
      obtain ⟨_, ⟨⟩⟩ | hx := h.put u hu true (by simp [hw, puts]) _ (result_ok (he ▸ hr))
      exact hx
    | notStored he =>
      obtain rfl := of_decide_eq_true (hj rfl)
      have hf := hfresh (hj rfl)
      refine h.ends hb hu hns (hex rfl) (fun hne => hne) (fun w hw => ?_) (by simp [hf])
      exact ⟨(some.inj hw).symm, hf⟩
    | notUpdated _ hne =>
      refine h.ends hb hu hns (hex rfl) (fun hne => hne) (by simp) fun e hfl => ?_
      refine (h.agree e hfl).resolve_left ?_
      rintro ⟨v, hv, hset⟩
      obtain rfl := h.alone u hu (hex rfl) v hv hset.concerns
      rcases hset with ⟨-, hl⟩ | ⟨ht, -⟩
      · rw [hans _ hl, hl] at hr
        exact hne _ (some.inj hr).symm
      · rw [hw] at ht
        cases ht
    | @updated j e' _ _ hr' =>
      obtain rfl := of_decide_eq_true (hj rfl)
      obtain ⟨a, rfl⟩ := hr'
      obtain ⟨d, hd⟩ := h.live u hu e' hw
      have hfl : flags j (updateRow j (fun r => { r with enabled := e' }) s.db) =
          some (false, e') := by
        rw [flags_set (f := fun r => { r with enabled := e' }) (g := fun p => (p.1, e'))
          (fun _ => rfl) fun _ => rfl, hd]
        rfl
      refine h.ends hb hu hns (hex rfl) (fun _ => by rw [hfl]; simp) (by simp) fun e he => ?_
      obtain ⟨-, rfl⟩ := Prod.mk.inj (some.inj (hfl.symm.trans he))
      exact h.answered hu hw hr
    | notDeleted _ hne =>
      have hj := htg rfl
      refine h.passes hb hu hns hj (fun hne => hne) (by simp) fun e he => ⟨he, fun hset => ?_⟩
      obtain ⟨exc, rfl, hnf⟩ := hne
      rcases hset with ⟨⟨e, hw'⟩, -⟩ | ⟨hhead, hl⟩
      · rw [hw] at hw'
        cases hw'
      · obtain ⟨a, ha⟩ := isSome_iff_exists.1 hl
        rw [hans a ha, ha] at hr
        rcases h.gone u hu hhead a ha with rfl | rfl
        · cases hr
        · obtain rfl := Except.error.inj (some.inj hr)
          cases hnf
    | deleted _ _ | reaped => exact h.marks hb hu hns (htg rfl) (by rw [hw]; rfl) rfl (by simp)
    | reapedNext =>
      exact h.marks hb hu hns (htg rfl) (by rw [hw]; rfl) rfl fun w hw => ⟨_, _, (some.inj hw).symm⟩
    | notRotated _ _ | rotated _ _ => cases hc
    | restored hre | restores hre _ =>
      rw [hrun] at hre
      cases hre
    | disables => cases hrun

end Resume

lemma keep {now mono : ℕ} {b : Broker} {ss : List Task} (h : Switched id s)
    (hr : b.records = s.broker.records) (hs : ss ⊆ s.sent) :
    Switched id { s with now := now, mono := mono, broker := b, sent := ss } :=
  { h with
    running := fun u hu => h.running u (hu.imp_right (hs ·))
    sent := fun u hu => h.sent u (hs hu)
    put := fun u hu e he a hl => (h.put u hu e he a hl).imp_right (hr ▸ ·)
    agree := fun e he => (h.agree e he).imp_right (hr ▸ ·) }

lemma step (h : Switched id s) (hb : Base digest s) (hok : settled id s i = true)
    (hs : Api.step cfg cap digest s i = some s') : Switched id s' := by
  cases hb.does hs with
  | tick => exact h.keep rfl (.refl _)
  | idle => exact h
  | request hq => exact h.request hb hq hok
  | reap _ he => exact h.reap hb he hok
  | exec hu he => exact h.exec hb hu he
  | drop => exact h.keep rfl fun _ hu => (mem_del.1 hu).1
  | resume hu hr hd => exact h.resume hb hu hr hd hok
  | broker hr => exact h.keep hr (.refl _)
  | brokerRestart | apiRestart => cases hok

lemma init (hi : Init s) : Switched id s := by
  obtain ⟨⟨c, -, hc⟩, he⟩ := hi
  rw [hc] at he
  subst he
  exact ⟨by simp, by simp, by simp, by simp, by simp, by simp, by simp, by simp,
    by simp [flags, findRow]⟩

lemma of_trace {tr : List (State × Label)} (h : Trace (Api.step cfg cap digest) Init tr s)
    (hok : ∀ p ∈ tr, settled id p.1 p.2 = true) : Base digest s ∧ Switched id s :=
  h.inv_of_ok (I := fun s => Base digest s ∧ Switched id s) (fun _ hi => ⟨.init hi, .init hi⟩)
    (fun _ _ _ ⟨hb, hi⟩ hok hs => ⟨hb.step hs, hi.step hb hok hs⟩) hok

end Switched

/-! ## Updates -/

def patches (s : State) : Label → Option (Bytes × Bool)
  | .request (.updateTunnel _ id e) => some (id, e)
  | .resume c _ _ => (get c s.tasks).bind fun u =>
    match u.wait with
    | .update id e => some (id, e)
    | _ => none
  | _ => none

lemma flags_of_caller {caller : Caller} {row : Row} {db : List Row}
    (h : caller.row cap id db = some row) : flags id db = some (false, row.enabled) := by
  have hf : findRow id db = some row ∧ row.deleted = false := by
    cases caller with
    | owner secret =>
      obtain ⟨hf, hp⟩ := filter_eq_some_iff.1 h
      simp only [and_eq_true, not_eq_true'] at hp
      exact ⟨hf, hp.1⟩
    | admin =>
      obtain ⟨hf, hp⟩ := filter_eq_some_iff.1 h
      exact ⟨hf, by simpa using hp⟩
  rw [flags, hf.1, map_some, hf.2]

lemma Switched.at_once {caller : Caller} {e : Bool} {row : Option Row} (h : Switched id s)
    (hok : settled id s (.request (.updateTunnel caller id e)) = true)
    (hr : (updateTunnel cap caller id e s.db).response = some (.updated row)) :
    Has id e s.broker.records := by
  have hno : ∀ u ∈ s.tasks, u.wait.concerns id = false := by simpa [settled] using hok
  cases hc : caller.row cap id s.db with
  | none => simp [updateTunnel, hc, notFound] at hr
  | some =>
    simp only [updateTunnel, hc] at hr
    split_ifs at hr with he
    · refine (h.agree e (he ▸ flags_of_caller hc)).resolve_left ?_
      rintro ⟨u, hu, hset⟩
      have := hno u hu
      rw [hset.concerns] at this
      cases this

lemma Switched.after_call {e : Bool} {row : Option Row} {o : Outcome}
    {r : Except BrokerExc Answer} (h : Switched id s) (hu : u ∈ s.tasks)
    (hw : u.wait = .update id e) (ho : o.result (s.answers.lookup u.ref) = some r)
    (hr : (updateTunnelDone id e s.db r).response = some (.updated row)) :
    Has id e s.broker.records := by
  cases r with
  | error => simp [updateTunnelDone, brokerFailed] at hr
  | ok a => exact h.answered hu hw ho

/-- In every run in which each call on a tunnel that is executed is answered, and its updates run
alone, an update that is answered with success has reached the broker. -/
theorem patch_real {tr : List (State × Label)} {e : Bool} {row : Option Row}
    (h : Trace (Api.step cfg cap digest) Init tr s) (hok : ∀ p ∈ tr, settled id p.1 p.2 = true)
    (hs : Api.step cfg cap digest s i = some s') (hi : settled id s i = true)
    (hp : patches s i = some (id, e)) (hr : s'.responses = .updated row :: s.responses) :
    ∃ t ∈ s'.broker.tunnels, t.registered = true ∧ t.id = id ∧ t.enabled = e := by
  obtain ⟨hb, hsw⟩ := Switched.of_trace h hok
  have tunnel : Has id e s.broker.records →
      ∃ t ∈ s.broker.tunnels, t.registered = true ∧ t.id = id ∧ t.enabled = e := by
    rintro ⟨x, hx, hid, he⟩
    obtain ⟨t, ht, hreg, rfl⟩ := mem_records.1 hx
    exact ⟨t, ht, hreg, hid, he⟩
  -- the response is the one of the turn
  have responds : ∀ (s₀ : State) {t : Turn}, s₀.responses = s.responses → s' = s₀.turn t →
      t.response = some (.updated row) := by
    rintro s₀ t he rfl
    rw [turn_responses, he] at hr
    cases ht : t.response with
    | none =>
      rw [ht] at hr
      exact absurd (congrArg length hr) (by simp)
    | some x =>
      rw [ht] at hr
      exact congrArg some (cons.inj hr).1
  cases i with
  | request q =>
    cases q with
    | updateTunnel caller j e' =>
      obtain ⟨rfl, rfl⟩ := Prod.mk.inj (some.inj hp)
      simp only [Api.step, ite_none_right_eq_some] at hs
      obtain ⟨-, hs⟩ := hs
      have hs' := (some.inj hs).symm
      rw [show s'.broker = s.broker by rw [hs', turn_broker]]
      exact tunnel (hsw.at_once hi (responds s rfl hs'))
    | _ => cases hp
  | resume c o stored =>
    obtain ⟨u, hu, hw⟩ := bind_eq_some_iff.1 hp
    obtain ⟨u', hu', hs⟩ := bind_eq_some_iff.1 hs
    cases (hu.symm.trans hu')
    obtain ⟨r, ho, hs⟩ := map_eq_some_iff.1 hs
    obtain rfl : u.ref = c := key_of_get hu
    have hw : u.wait = .update id e := by
      split at hw
      · rename_i j e' hw'
        obtain ⟨rfl, rfl⟩ := Prod.mk.inj (some.inj hw)
        exact hw'
      · cases hw
    have hresp := responds (s.resumed u) rfl hs.symm
    rw [hw] at hresp
    rw [← hs, turn_broker]
    exact tunnel (hsw.after_call (mem_of_get hu) hw ho hresp)
  | _ => cases hp

theorem patch_real_again : ∃ tr s s' row, Trace smallStep Init tr s ∧
    smallStep s (.resume 2 .answered true) = some s' ∧ s'.responses = .updated row :: s.responses ∧
    ∃ t ∈ s'.broker.tunnels, t.registered = true ∧ t.id = [65] ∧ t.enabled = true := by
  obtain ⟨tr, s, h, hok, hi, hp, hs⟩ := exists_trace smallStep Init smallState_init
    [asksFor [65], .exec 0 {}, .resume 0 .answered true,
      .request (.updateTunnel (.owner (some [7])) [65] false), .exec 1 {}, .resume 1 .answered true,
      .request (.updateTunnel (.owner (some [7])) [65] true), .exec 2 {}]
    (fun r => (∀ p ∈ r.1, settled [65] p.1 p.2 = true) ∧
      settled [65] r.2 (.resume 2 .answered true) = true ∧
      patches r.2 (.resume 2 .answered true) = some ([65], true) ∧
      (smallStep r.2 (.resume 2 .answered true)).any (fun s' =>
        s'.responses = .updated (findRow [65] s'.db) :: r.2.responses) = true) (by decide)
  obtain ⟨s', hs, hr⟩ := (any_eq_true _ _).1 hs
  have hr := of_decide_eq_true hr
  exact ⟨tr, s, s', _, h, hs, hr, patch_real h hok hs hi hp hr⟩

/-- A call that disables a tunnel is executed and times out; the next request to enable it is
answered from the row. -/
theorem patch_from_row : ∃ tr s s' row, Trace smallStep Init tr s ∧
    (∀ p ∈ tr, restarts p.2 = false) ∧ s.tasks = [] ∧ s.sent = [] ∧
    smallStep s (.request (.updateTunnel (.owner (some [7])) [65] true)) = some s' ∧
    s'.responses = .updated row :: s.responses ∧
    (tmTunnelFind [65] s'.broker).any (fun t => !t.enabled) = true := by
  obtain ⟨tr, s, h, hn, ht, hq, hs⟩ := exists_trace smallStep Init smallState_init
    [asksFor [65], .exec 0 {}, .resume 0 .answered true,
      .request (.updateTunnel (.owner (some [7])) [65] false), .exec 1 {},
      .resume 1 (.unavailable "timed out") true]
    (fun r => (∀ p ∈ r.1, restarts p.2 = false) ∧ r.2.tasks = [] ∧ r.2.sent = [] ∧
      (smallStep r.2 (.request (.updateTunnel (.owner (some [7])) [65] true))).any (fun s' =>
        s'.responses = .updated (findRow [65] s'.db) :: r.2.responses ∧
        (tmTunnelFind [65] s'.broker).any (fun t => !t.enabled) = true) = true) (by decide)
  obtain ⟨s', hs, hr⟩ := (any_eq_true _ _).1 hs
  obtain ⟨hr, he⟩ := of_decide_eq_true hr
  exact ⟨tr, s, s', _, h, hn, ht, hq, hs, hr, he⟩

end TunnelMate.Api
