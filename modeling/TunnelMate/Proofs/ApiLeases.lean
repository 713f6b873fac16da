import TunnelMate.Proofs.ApiRuns

/-!
# Leases and the quota

`lease_reaper` selects the expired rows once and then waits for the broker row by row; a renewal
that lands in between changes the row and not the reaper's list.
-/

namespace TunnelMate.Api

open List Option Table Bool Nat

variable {cfg : Settings} {cap : Bytes → Bytes} {digest : Bytes → Digest} {s s' : State}
  {i : Label} {id : Bytes} {u : Task} {t : Turn} {tr : List (State × Label)} {ts : List Task}
  {rate : RateWindow} {up : Bool}

/-! ## Renewals -/

def Wait.doomed : Wait → List Bytes
  | .reap id rest => id :: rest
  | _ => []

def ReaperDeletes (s : State) (i : Label) (id : Bytes) : Prop :=
  ∃ u : Task, (∃ rest, u.wait = .reap id rest) ∧
    ((u ∈ s.sent ∧ ∃ d, i = .exec u.ref d) ∨ u ∈ s.tasks ∧ ∃ o stored, i = .resume u.ref o stored)

def inTime (cap : Bytes → Bytes) (s : State) : Label → Bool
  | .request (.renewTunnel id secret) =>
    (tunnelForOwner cap id secret s.db).isNone ||
      (s.tasks ++ s.sent).all fun u => u.wait.doomed.all (· ≠ id)
  | _ => true

structure LeaseInv (cfg : Settings) (s : State) : Prop where
  bound : ∀ id e, .renewed id e ∈ s.responses → e ≤ s.now + cfg.leaseSeconds
  row : ∀ id e, .renewed id e ∈ s.responses → ∃ row ∈ s.db, row.tunnelId = id ∧ e ≤ row.expiresAt
  doomed : ∀ u, u ∈ s.tasks ∨ u ∈ s.sent → ∀ id ∈ u.wait.doomed,
    ∀ e, .renewed id e ∈ s.responses → e ≤ s.now

variable {db : List Row} {r : Except BrokerExc Answer}
variable {now : ℕ} {w : Wait} {q : Request}

lemma Done.lease {e : ℕ}
    (hd : Done cfg cap now db r w t) (h : ∃ row ∈ db, row.tunnelId = id ∧ e ≤ row.expiresAt) :
    ∃ row ∈ t.db, row.tunnelId = id ∧ e ≤ row.expiresAt := by
  obtain ⟨row, hrow, hi, hle⟩ := h
  rcases hd.map (g := fun row => (row.tunnelId, row.expiresAt)) (fun _ _ => rfl) (fun _ => rfl)
    (fun _ cred _ => by cases cred <;> rfl) with
    he | ⟨_, _, _, _, _, _, _, _, _, _, -, -, -, he, -⟩
  · have hm : (row.tunnelId, row.expiresAt) ∈
        t.db.map fun row => (row.tunnelId, row.expiresAt) := by
      rw [he]
      exact mem_map_of_mem hrow
    obtain ⟨row', hrow', hpe⟩ := mem_map.1 hm
    obtain ⟨h1, h2⟩ := Prod.mk.inj hpe
    exact ⟨row', hrow', h1.trans hi, h2 ▸ hle⟩
  · rw [he]
    exact ⟨row, mem_append_left _ hrow, hi, hle⟩

lemma Done.doomed {w' : Wait}
    (hd : Done cfg cap now db r w t) (hw : t.wait = some w') : ∀ j ∈ w'.doomed, j ∈ w.doomed := by
  intro j hj
  cases hd with
  | reapedNext =>
    cases hw
    exact mem_cons_of_mem _ hj
  | notStored _ | restores _ _ | disables =>
    cases hw
    cases hj
  | _ => cases hw

namespace LeaseInv

section

variable (h : LeaseInv cfg s)
include h

lemma turn (ht : ts ⊆ s.tasks) (hplain : ∀ j e, .renewed j e ∉ t.response.toList)
    (hrow : ∀ j e, (∃ row ∈ s.db, row.tunnelId = j ∧ e ≤ row.expiresAt) →
      ∃ row ∈ t.db, row.tunnelId = j ∧ e ≤ row.expiresAt)
    (hw : ∀ w, t.wait = some w → ∀ j ∈ w.doomed, ∀ e, .renewed j e ∈ s.responses → e ≤ s.now) :
    LeaseInv cfg ((s.withTasks ts rate up).turn t) := by
  have hmem : ∀ j e, .renewed j e ∈ ((s.withTasks ts rate up).turn t).responses →
      .renewed j e ∈ s.responses := by
    intro j e hj
    rw [turn_responses] at hj
    exact (mem_append.1 hj).resolve_left (hplain j e)
  refine ⟨fun j e hj => ?_, fun j e hj => ?_, fun v hv j hvj e hj => ?_⟩
  · rw [turn_now]
    exact h.bound j e (hmem j e hj)
  · rw [turn_db]
    exact hrow j e (h.row j e (hmem j e hj))
  · rw [turn_now]
    rcases calls_turn.1 hv with ⟨w, hwt, rfl⟩ | hv
    · exact hw w hwt j hvj e (hmem j e hj)
    · exact h.doomed v (hv.imp_left (ht ·)) j hvj e (hmem j e hj)

lemma renewed (hp : Present id s.db) (hid : ∀ u, u ∈ s.tasks ∨ u ∈ s.sent → id ∉ u.wait.doomed) :
    LeaseInv cfg ({ s with rate := rate }.turn
      { db := updateRow id (fun r => { r with expiresAt := s.now + cfg.leaseSeconds }) s.db
        response := some (.renewed id (s.now + cfg.leaseSeconds)) }) := by
  -- the new renewal, or an older one
  have hmem : ∀ j e, .renewed j e ∈ .renewed id (s.now + cfg.leaseSeconds) :: s.responses →
      (j = id ∧ e = s.now + cfg.leaseSeconds) ∨ .renewed j e ∈ s.responses := by
    intro j e hj
    rcases mem_cons.1 hj with hj | hj
    · exact .inl ⟨(Response.renewed.inj hj).1, (Response.renewed.inj hj).2⟩
    · exact .inr hj
  refine ⟨fun j e hj => ?_, fun j e hj => ?_, fun v hv j hvj e hj => ?_⟩
  · rcases hmem j e hj with ⟨-, rfl⟩ | hj
    · exact le_rfl
    · exact h.bound j e hj
  · -- the row of the tunnel has now the latest expiry of all
    have hnew : ∀ {r : Row}, r ∈ s.db → r.tunnelId = id →
        ∃ row ∈ updateRow id (fun r => { r with expiresAt := s.now + cfg.leaseSeconds }) s.db,
          row.tunnelId = id ∧ row.expiresAt = s.now + cfg.leaseSeconds := by
      intro r hr hi
      exact ⟨_, mem_map_of_mem hr, by rw [if_pos hi]; exact hi, by rw [if_pos hi]⟩
    rcases hmem j e hj with ⟨rfl, rfl⟩ | hj
    · obtain ⟨r, hr, hi, -⟩ := hp
      obtain ⟨row, hrow, hi, he⟩ := hnew hr hi
      exact ⟨row, hrow, hi, he.ge⟩
    · obtain ⟨r, hr, hi, he⟩ := h.row j e hj
      by_cases hji : j = id
      · obtain ⟨row, hrow, hi, he⟩ := hnew hr (hi.trans hji)
        exact ⟨row, hrow, hi.trans hji.symm, he ▸ h.bound j e hj⟩
      · exact ⟨r, mem_map.2 ⟨r, hr, if_neg fun hri => hji (hi.symm.trans hri)⟩, hi, he⟩
  · rcases hmem j e hj with ⟨rfl, -⟩ | hj
    · exact absurd hvj (hid v hv)
    · exact h.doomed v hv j hvj e hj

lemma request (hok : inTime cap s (.request q) = true) (hq : Handled cfg cap s.now s.db q t) :
    LeaseInv cfg ({ s with rate := rate }.turn t) := by
  cases hq with
  | @refused _ resp hp =>
    refine h.turn (.refl _) (fun j e hj => ?_) (fun _ _ hr => hr) (by simp)
    simp only [toList_some, mem_singleton] at hj
    subst hj
    exact hp
  | begins hbeg =>
    refine h.turn (.refl _) (by simp) (fun _ _ hr => hr) fun w hw j hj => ?_
    cases hw
    cases hbeg <;> cases hj
  | @renewed id secret row ho =>
    refine h.renewed ⟨row, present_of_owner ho⟩ fun u hu => ?_
    simp only [inTime, ho, isNone_some, Bool.false_or, List.all_eq_true,
      mem_append, decide_eq_true_eq] at hok
    exact fun hm => hok u hu id hm rfl

lemma reap {rest : List Bytes} (hb : Base digest s) (he : expiredIds s.now s.db = id :: rest) :
    LeaseInv cfg (s.turn { db := s.db, wait := some (.reap id rest) }) := by
  refine h.turn (.refl _) (by simp) (fun _ _ hr => hr) fun w hw j hj e hje => ?_
  cases hw
  have hj : j ∈ expiredIds s.now s.db := he ▸ hj
  obtain ⟨r, hr, rfl⟩ := mem_map.1 hj
  simp only [mem_filter, and_eq_true, decide_eq_true_eq] at hr
  obtain ⟨row, hrow, hi, hle⟩ := h.row _ e hje
  obtain rfl := inj_on_of_nodup_map hb.rows hrow hr.1 hi
  exact hle.trans hr.2.2

lemma step (hb : Base digest s) (hok : inTime cap s i = true)
    (hs : Api.step cfg cap digest s i = some s') : LeaseInv cfg s' := by
  cases hb.does hs with
  | tick hn =>
    exact ⟨fun j e hj => (h.bound j e hj).trans (Nat.add_le_add_right hn _), h.row,
      fun v hv j hvj e hj => (h.doomed v hv j hvj e hj).trans hn⟩
  | request hq => exact h.request hok hq
  | idle => exact h
  | reap _ he => exact h.reap hb he
  | exec _ _ | drop _ =>
    exact ⟨h.bound, h.row, fun v hv => h.doomed v (hv.imp_right fun hv => (mem_del.1 hv).1)⟩
  | @resume u o stored r t hu hr hd =>
    exact h.turn (fun _ hv => (mem_del.1 hv).1)
      (fun _ _ he => hd.renewed (mem_toList.1 he)) (fun _ _ => hd.lease)
      fun w hw j hj => h.doomed u (.inl hu) j (hd.doomed hw j hj)
  | broker => exact { h with }
  | brokerRestart =>
    exact ⟨h.bound, h.row, fun v hv => h.doomed v (hv.imp_right fun hv => by cases hv)⟩
  | apiRestart =>
    exact h.turn (nil_subset _) (by simp) (fun _ _ hr => hr) (by simp [Wait.doomed])

end

lemma of_trace (h : Trace (Api.step cfg cap digest) Init tr s)
    (hok : ∀ p ∈ tr, inTime cap p.1 p.2 = true) : LeaseInv cfg s := by
  refine (h.inv_of_ok (I := fun s => Base digest s ∧ LeaseInv cfg s) (fun s hi => ⟨.init hi, ?_⟩)
    (fun s i s' ⟨hb, hi⟩ (hok : inTime cap s i = true) hs => ⟨hb.step hs, hi.step hb hok hs⟩) hok).2
  obtain ⟨-, he⟩ := hi
  rw [he]
  exact ⟨by simp, by simp, by simp⟩

end LeaseInv

/-- In every run in which no tunnel is renewed while the reaper has it in hand, the reaper does not
delete a tunnel before the expiry that a renewal was answered with. -/
theorem lease_honoured {e : ℕ} (h : Trace (Api.step cfg cap digest) Init tr s)
    (hok : ∀ p ∈ tr, inTime cap p.1 p.2 = true) (hr : .renewed id e ∈ s.responses)
    (hd : ReaperDeletes s i id) : e ≤ s.now := by
  obtain ⟨u, ⟨rest, hw⟩, hu⟩ := hd
  refine (LeaseInv.of_trace h hok).doomed u ?_ id (by rw [hw]; exact mem_cons_self) e hr
  exact hu.symm.imp And.left And.left

theorem lease_honoured_late : ∃ tr s, Trace smallStep Init tr s ∧ .renewed [65] 15 ∈ s.responses ∧
    ReaperDeletes s (.exec 1 {}) [65] ∧ 15 ≤ s.now := by
  obtain ⟨tr, s, h, hok, hr, hu⟩ := exists_trace smallStep Init smallState_init
    [asksFor [65], .exec 0 {}, .resume 0 .answered true, .tick 5 0,
      .request (.renewTunnel [65] (some [7])), .tick 15 0, .reap]
    (fun r => (∀ p ∈ r.1, inTime (fun x => x) p.1 p.2 = true) ∧
      .renewed [65] 15 ∈ r.2.responses ∧ ⟨1, .reap [65] []⟩ ∈ r.2.sent) (by decide)
  have hd : ReaperDeletes s (.exec 1 {}) [65] := ⟨_, ⟨[], rfl⟩, .inl ⟨hu, {}, rfl⟩⟩
  exact ⟨tr, s, h, hr, hd, lease_honoured h hok hr hd⟩

/-- The lease is renewed while the reaper's call is on its way, and the broker then deletes the
tunnel. -/
theorem lease_honoured_race : ∃ tr s s', Trace smallStep Init tr s ∧
    .renewed [65] 20 ∈ s.responses ∧ s.now = 10 ∧ ReaperDeletes s (.exec 1 {}) [65] ∧
    smallStep s (.exec 1 {}) = some s' ∧ (∃ t ∈ s.broker.tunnels, t.registered = true) ∧
    ∀ t ∈ s'.broker.tunnels, t.registered = false := by
  obtain ⟨tr, s, h, hr, hn, hu, ht, hs⟩ := exists_trace smallStep Init smallState_init
    [asksFor [65], .exec 0 {}, .resume 0 .answered true, .tick 10 0, .reap,
      .request (.renewTunnel [65] (some [7]))]
    (fun r => .renewed [65] 20 ∈ r.2.responses ∧ r.2.now = 10 ∧
      ⟨1, .reap [65] []⟩ ∈ r.2.sent ∧ (∃ t ∈ r.2.broker.tunnels, t.registered = true) ∧
      (smallStep r.2 (.exec 1 {})).any (fun s' => ∀ t ∈ s'.broker.tunnels, t.registered = false)
        = true) (by decide)
  obtain ⟨s', hs, hg⟩ := (any_eq_true _ _).1 hs
  exact ⟨tr, s, s', h, hr, hn, ⟨_, ⟨[], rfl⟩, .inl ⟨hu, {}, rfl⟩⟩, hs, ht, of_decide_eq_true hg⟩

/-! ## The quota -/

def Wait.createsFor (ip : Bytes) : Wait → Bool
  | .create _ ip' _ _ => ip' = ip
  | _ => false

def creating (ip : Bytes) (s : State) : ℕ := s.tasks.countP (·.wait.createsFor ip)

def room (cfg : Settings) (s : State) (ip : Bytes) : Bool :=
  activeTunnels ip s.now s.db + creating ip s < cfg.maxTunnelsPerIp

def roomy (cfg : Settings) (cap : Bytes → Bytes) (s : State) : Label → Bool
  | .request (.createTunnel _ ip _ _ _) =>
    activeTunnels ip s.now s.db ≥ cfg.maxTunnelsPerIp || room cfg s ip
  | .request (.renewTunnel id secret) =>
    (tunnelForOwner cap id secret s.db).all fun r => r.live s.now || room cfg s r.sourceIp
  | _ => true

def QuotaInv (cfg : Settings) (s : State) : Prop :=
  ∀ ip, activeTunnels ip s.now s.db + creating ip s ≤ cfg.maxTunnelsPerIp

section Counts

variable {db : List Row} {p : Row → Bool} {f : Row → Row}

lemma countP_updateRow_le (h : ∀ r ∈ db, r.tunnelId = id → p (f r) = true → p r = true) :
    (updateRow id f db).countP p ≤ db.countP p := by
  unfold updateRow
  rw [countP_map]
  refine countP_mono_left fun r hr hp => ?_
  simp only [Function.comp] at hp
  split_ifs at hp with hi
  · exact h r hr hi hp
  · exact hp

lemma countP_updateRow_succ (hn : (db.map (·.tunnelId)).Nodup) :
    (updateRow id f db).countP p ≤ db.countP p + 1 := by
  induction db with
  | nil => simp [updateRow]
  | cons r db ih =>
    rw [map_cons, nodup_cons] at hn
    by_cases hi : r.tunnelId = id
    · have hrest : updateRow id f db = db := by
        refine (map_congr_left fun x hx => if_neg fun hx' => hn.1 ?_).trans (map_id db)
        exact mem_map.2 ⟨x, hx, hx'.trans hi.symm⟩
      have hcons : updateRow id f (r :: db) = f r :: updateRow id f db := by
        simp [updateRow, hi]
      rw [hcons, hrest, countP_cons, countP_cons]
      split_ifs <;> omega
    · have hcons : updateRow id f (r :: db) = r :: updateRow id f db := by
        simp [updateRow, hi]
      have := ih hn.2
      rw [hcons, countP_cons, countP_cons]
      omega

end Counts

section Quota

variable {ip : Bytes}

def Turn.creating (ip : Bytes) (t : Turn) : ℕ := t.wait.toList.countP (·.createsFor ip)

lemma creating_turn : creating ip (s.turn t) = t.creating ip + creating ip s := by
  unfold creating Turn.creating State.turn
  split <;> rename_i h
  · simp [h]
  · simp [h, State.wait, countP_cons, add_comm]

lemma creating_del (hb : Base digest s) (hu : u ∈ s.tasks) :
    (u.wait.createsFor ip).toNat + creating ip (s.resumed u) = creating ip s := by
  have hp := (perm_del hb.tasks.nodup hu).countP_eq fun v : Task => v.wait.createsFor ip
  unfold creating
  rw [← hp, countP_cons, add_comm]
  cases u.wait.createsFor ip <;> rfl

lemma activeTunnels_tick {now' : ℕ} (h : now ≤ now') :
    activeTunnels ip now' db ≤ activeTunnels ip now db := by
  refine countP_mono_left fun r _ hr => ?_
  simp only [Row.live, and_eq_true, decide_eq_true_eq] at hr ⊢
  exact ⟨hr.1, hr.2.1, lt_of_le_of_lt h hr.2.2⟩

lemma activeTunnels_update {f : Row → Row}
    (hf : ∀ r, (f r).sourceIp = r.sourceIp ∧ ((f r).live now = true → r.live now = true)) :
    activeTunnels ip now (updateRow id f db) ≤ activeTunnels ip now db := by
  refine countP_updateRow_le fun r _ _ hr => ?_
  simp only [and_eq_true, decide_eq_true_eq] at hr ⊢
  exact ⟨(hf r).1 ▸ hr.1, (hf r).2 hr.2⟩

lemma Done.quota (hd : Done cfg cap now db r w t) : activeTunnels ip now t.db + t.creating ip ≤
      activeTunnels ip now db + (w.createsFor ip).toNat := by
  cases hd with
  | @created body ip' _ _ _ _ _ _ _ _ _ _ _ _ =>
    simp only [activeTunnels, Turn.creating, toList_none, countP_nil, add_zero,
      countP_append, countP_singleton, Wait.createsFor, newRow]
    by_cases hip : ip' = ip
    · simp only [hip, decide_true, Bool.true_and, toNat_true]
      split_ifs <;> omega
    · simp [hip]
  | updated _ _ =>
    exact Nat.add_le_add (activeTunnels_update fun _ => ⟨rfl, fun h => h⟩) (Nat.zero_le _)
  | deleted _ _ | reaped | reapedNext =>
    refine Nat.add_le_add (activeTunnels_update fun _ => ⟨rfl, fun h => ?_⟩) (Nat.zero_le _)
    cases h
  | @rotated cred _ _ hmac _ _ _ =>
    refine Nat.add_le_add (activeTunnels_update fun r => ?_) (Nat.zero_le _)
    cases cred <;> exact ⟨rfl, fun h => h⟩
  | _ => exact Nat.add_le_add_left (Nat.zero_le _) _

namespace QuotaInv

lemma request (h : QuotaInv cfg s) (hb : Base digest s)
    (hok : roomy cfg cap s (.request q) = true) (hq : Handled cfg cap s.now s.db q t) :
    QuotaInv cfg ({ s with rate := rate }.turn t) := by
  intro ip
  have hip := h ip
  rw [turn_now, turn_db, creating_turn]
  change activeTunnels ip s.now t.db + (t.creating ip + creating ip s) ≤ _
  cases hq with
  | refused => simpa [Turn.creating] using hip
  | begins hbeg =>
    cases hbeg with
    | @create body ip' id secret blocked ha =>
      simp only [roomy, room, or_eq_true, decide_eq_true_eq] at hok
      by_cases hi : ip' = ip
      · subst hi
        simp only [Turn.creating, toList_some, countP_singleton, Wait.createsFor,
          decide_true, if_true]
        omega
      · simpa [Turn.creating, Wait.createsFor, hi] using hip
    | _ => simpa [Turn.creating, Wait.createsFor] using hip
  | @renewed id secret row ho =>
    obtain ⟨hm, hid, -⟩ := present_of_owner ho
    -- the row of that id is the one that was found, so only its address can gain a tunnel
    have huniq : ∀ r ∈ s.db, r.tunnelId = id → r = row := fun r hr he =>
      inj_on_of_nodup_map hb.rows hr hm (he.trans hid.symm)
    simp only [roomy, ho, all_some, or_eq_true, room, decide_eq_true_eq] at hok
    simp only [Turn.creating, toList_none, countP_nil, zero_add]
    by_cases hlive : row.live s.now = true ∨ row.sourceIp ≠ ip
    · refine le_trans (Nat.add_le_add_right (countP_updateRow_le fun r hr he hp => ?_) _) hip
      obtain rfl := huniq r hr he
      simp only [and_eq_true, decide_eq_true_eq] at hp ⊢
      exact ⟨hp.1, hlive.resolve_right fun hne => hne hp.1⟩
    · obtain ⟨hl, rfl⟩ : row.live s.now ≠ true ∧ row.sourceIp = ip := by simpa using hlive
      have hroom := hok.resolve_left hl
      refine le_trans (Nat.add_le_add_right (countP_updateRow_succ hb.rows) _) ?_
      unfold activeTunnels at hroom
      omega

lemma step (h : QuotaInv cfg s) (hb : Base digest s) (hok : roomy cfg cap s i = true)
    (hs : Api.step cfg cap digest s i = some s') : QuotaInv cfg s' := by
  cases hb.does hs with
  | tick hn => exact fun ip => (Nat.add_le_add_right (activeTunnels_tick hn) _).trans (h ip)
  | request hq => exact h.request hb hok hq
  | idle => exact h
  | reap _ _ =>
    intro ip
    rw [turn_now, turn_db, creating_turn]
    simpa [Turn.creating, Wait.createsFor] using h ip
  | @resume u o stored r t hu hr hd =>
    intro ip
    rw [turn_now, turn_db, creating_turn]
    change activeTunnels ip s.now t.db + (t.creating ip + creating ip (s.resumed u)) ≤ _
    have h1 : activeTunnels ip s.now t.db + t.creating ip ≤ _ := hd.quota
    have h2 : _ = creating ip s := creating_del hb hu
    have h3 := h ip
    omega
  | apiRestart =>
    intro ip
    refine le_trans ?_ (h ip)
    simp [creating, State.turn, State.withTasks, State.wait, Wait.createsFor]
  | _ => exact h

end QuotaInv

/-- In every run in which creations and renewals of expired rows find room with the creations in
progress counted, an address never has more active tunnels than its quota. -/
theorem quota_kept (h : Trace (Api.step cfg cap digest) Init tr s)
    (hok : ∀ p ∈ tr, roomy cfg cap p.1 p.2 = true) (ip : Bytes) :
    activeTunnels ip s.now s.db ≤ cfg.maxTunnelsPerIp := by
  refine le_trans (le_add_right _ (creating ip s)) ?_
  refine (h.inv_of_ok (I := fun s => Base digest s ∧ QuotaInv cfg s) (fun s hi => ⟨.init hi, ?_⟩)
    (fun s i s' ⟨hb, hi⟩ (hok : roomy cfg cap s i = true) hs =>
      ⟨hb.step hs, hi.step hb hok hs⟩) hok).2 ip
  obtain ⟨-, he⟩ := hi
  rw [he]
  exact fun ip => Nat.zero_le _

theorem quota_kept_twice : ∃ tr s, Trace smallStep Init tr s ∧ s.db.length = 3 ∧
    activeTunnels [] s.now s.db = 1 ∧ activeTunnels [] s.now s.db ≤ 2 := by
  obtain ⟨tr, s, h, hok, hl, ha⟩ := exists_trace smallStep Init smallState_init
    [asksFor [65], .exec 0 {}, .resume 0 .answered true, asksFor [66], .exec 1 {},
      .resume 1 .answered true, asksFor [67], .tick 10 0, .reap, .exec 2 {},
      .resume 2 .answered true, asksFor [67], .exec 4 {}, .resume 4 .answered true]
    (fun r => (∀ p ∈ r.1, roomy smallSettings (fun x => x) p.1 p.2 = true) ∧
      r.2.db.length = 3 ∧ activeTunnels [] r.2.now r.2.db = 1) (by decide)
  exact ⟨tr, s, h, hl, ha, quota_kept h hok []⟩

/-- Three creations of one address are admitted before the first of them stores its row. -/
theorem quota_kept_overlap : ∃ tr s, Trace smallStep Init tr s ∧
    smallSettings.maxTunnelsPerIp = 2 ∧ activeTunnels [] s.now s.db = 3 :=
  exists_run smallState_init
    [asksFor [65], asksFor [66],
      .request (.createTunnel { protocol := .udp } [] false [67] [7]),
      .exec 0 {}, .exec 1 {}, .exec 2 {},
      .resume 0 .answered true, .resume 1 .answered true, .resume 2 .answered true] (by decide)

end Quota

end TunnelMate.Api
