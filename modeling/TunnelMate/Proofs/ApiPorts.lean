import TunnelMate.Proofs.ApiRuns

/-!
# Published ports

A row keeps the port that the broker gave its tunnel, and `restore_runtime` asks for it again.
-/

namespace TunnelMate.Api

open List Table Bool

variable {cfg : Settings} {cap : Bytes → Bytes} {digest : Bytes → Digest} {s s' : State}
  {i : Label} {id : Bytes} {u v : Task} {t : Turn} {ts : List Task} {rate : RateWindow} {up : Bool}

def Wait.draws : Wait → Option Bytes
  | .create _ _ id _ => some id
  | _ => none

def newIds (s : State) : Label → Bool
  | .request (.createTunnel _ _ _ id _) =>
    s.db.all (·.tunnelId ≠ id) && (s.tasks ++ s.sent).all (·.wait.draws ≠ some id)
  | _ => true

def portsFree (s : State) : Label → Bool
  | .exec c _ => s.sent.all fun u => u.ref ≠ c || match u.wait with
    | .restore row _ => s.broker.tunnels.all fun tun => !tun.registered || tun.id = row.tunnelId ||
        tun.proto ≠ row.protocol || tun.publicPort ≠ row.publicPort
    | _ => true
  | _ => true

/-! ## Ports that tunnels can have -/

def PortFor (c : BrokerCfg) (proto : Proto) (closed : Bool) (port : ℕ) : Prop :=
  if closed = true ∧ proto = .tcp then port = 0 else port ≠ 0 ∧ tmPortInRange c port = true

variable {row : Row} {w : Wait} {db : List Row} {r : Except BrokerExc Answer}

section Ports

variable {b : Broker} {r : CreateReq} {x : Record}

lemma NewRecord.portFor (h : NewRecord b r x)
    (hr : b.cfg.publicPortStart ≤ b.cfg.publicPortEnd) : PortFor b.cfg r.proto r.closed x.port := by
  have hp := h.port
  unfold PortFor
  split_ifs at hp ⊢
  · exact hp
  · refine ⟨hp.1, ?_⟩
    obtain ⟨hne, he⟩ := hp
    rcases tmPortAlloc_cases b.cfg r.proto (r.preferPort % 2 ^ 16) b.ports with
      ⟨ha, -⟩ | ⟨j, _, hj, -, ha⟩
    · rw [ha] at he
      exact absurd he.symm hne
    · rw [ha] at he
      rw [portCount] at hj
      simp only [tmPortInRange, and_eq_true, decide_eq_true_eq]
      omega

lemma NewRecord.restored (h : NewRecord b (restoreReq row) x) (hi : b.RegistryInv)
    (hp : PortFor b.cfg row.protocol row.closed row.publicPort) (h16 : b.cfg.publicPortEnd < 2 ^ 16)
    (hf : ∀ y ∈ b.records, y.id = row.tunnelId ∨ y.proto ≠ row.protocol ∨
      y.port ≠ row.publicPort) : x.port = row.publicPort := by
  have hx : if row.closed = true ∧ row.protocol = .tcp then x.port = 0 else x.port ≠ 0 ∧
      (tmPortAlloc b.cfg row.protocol (row.publicPort % 2 ^ 16) b.ports).1 = x.port := h.port
  unfold PortFor at hp
  split_ifs at hx hp
  · exact hx.trans hp.symm
  · obtain ⟨hn, hr⟩ := hp
    have hlt : row.publicPort < 2 ^ 16 := by
      simp only [tmPortInRange, and_eq_true, decide_eq_true_eq] at hr
      exact hr.2.trans_lt h16
    rw [Nat.mod_eq_of_lt hlt] at hx
    obtain ⟨hne, he⟩ := hx
    rw [← he]
    refine tmPortAlloc_prefer hn hr (fun hm => ?_) (by rw [he]; exact hne)
    -- a port in use is the port of a tunnel, and that tunnel would be another one
    obtain ⟨-, e, hmem, hpr, hpo⟩ := (hi.marked _ _).1 hm
    obtain ⟨tun, htun, hreg, rfl⟩ := mem_entries.1 hmem
    have hrec : tun.record ∈ b.records := mem_records.2 ⟨tun, htun, hreg, rfl⟩
    rcases hf _ hrec with hid | hne | hne
    · exact h.fresh _ hrec (hid.trans h.id.symm)
    · exact hne hpr
    · exact hne hpo

end Ports

/-! ## Rows and tunnels -/

def Row.place (row : Row) : Bytes × Proto × Bool × ℕ :=
  (row.tunnelId, row.protocol, row.closed, row.publicPort)

structure PortInv (s : State) : Prop where
  agree : ∀ row ∈ s.db, ∀ x ∈ s.broker.records, x.id = row.tunnelId →
    x.port = row.publicPort ∧ x.proto = row.protocol
  rows : ∀ row ∈ s.db, PortFor s.broker.cfg row.protocol row.closed row.publicPort
  /-- `restore_runtime` has rows as they are in the table. -/
  restoring : ∀ u, Calls s u → ∀ row ∈ u.wait.rows, row.place ∈ s.db.map Row.place
  single : ∀ u v, Calls s u → Calls s v → ∀ id, u.wait.draws = some id → v.wait.draws = some id →
    u = v
  unnamed : ∀ u, Calls s u → ∀ id, u.wait.draws = some id → ¬ Named id s.db
  created : ∀ u ∈ s.tasks, ∀ body ip id secret, u.wait = .create body ip id secret →
    ∀ j p k ah tok th, s.answers.lookup u.ref = some (.reply (.created j p k ah tok th)) →
      PortFor s.broker.cfg body.protocol body.closed p ∧
      ∀ x ∈ s.broker.records, x.id = id → x.port = p ∧ x.proto = body.protocol

lemma rows_of_not_restoring (h : w.restoring = false) : w.rows = [] := by
  cases w <;> first | rfl | cases h

lemma named_place : Named id db ↔ id ∈ (db.map Row.place).map Prod.fst := by
  rw [map_map]
  exact named_iff

lemma Done.no_draw {now : ℕ} {w' : Wait}
    (h : Done cfg cap now db r w t) (hw : t.wait = some w') : w'.draws = none := by
  cases h with
  | notStored _ | reapedNext | restores _ _ | disables =>
    cases hw
    rfl
  | _ => cases hw

namespace PortInv

section

variable (h : PortInv s)
include h

lemma less {now mono : ℕ} {b : Broker} {ss : List Task} (hcfg : b.cfg = s.broker.cfg)
    (hrec : b.records ⊆ s.broker.records) (hse : ss ⊆ s.sent) :
    PortInv { s with now := now, mono := mono, broker := b, sent := ss } := by
  have hcalls : ∀ v, v ∈ s.tasks ∨ v ∈ ss → Calls s v := fun v hv => hv.imp_right (hse ·)
  refine ⟨fun row hrow x hx => h.agree row hrow x (hrec hx), fun row hrow => hcfg ▸ h.rows row hrow,
    fun v hv => h.restoring v (hcalls v hv),
    fun v w hv hw => h.single v w (hcalls v hv) (hcalls w hw),
    fun v hv => h.unnamed v (hcalls v hv), ?_⟩
  intro v hv body ip id secret hw j p k ah tok th hl
  obtain ⟨hpf, hports⟩ := h.created v hv body ip id secret hw j p k ah tok th hl
  exact ⟨hcfg ▸ hpf, fun x hx => hports x (hrec hx)⟩

section

variable (hb : Base digest s)
include hb

lemma turn (ht : ts ⊆ s.tasks) (hdb : t.db.map Row.place = s.db.map Row.place)
    (hrows : ∀ w, t.wait = some w → ∀ row ∈ w.rows, row.place ∈ s.db.map Row.place)
    (hdraw : ∀ w id, t.wait = some w → w.draws = some id → ¬ Named id s.db ∧
      ∀ v, Calls s v → v.wait.draws ≠ some id) : PortInv ((s.withTasks ts rate up).turn t) := by
  have hcalls : ∀ v, Calls (s.withTasks ts rate up) v → Calls s v := fun v hv => hv.imp_left (ht ·)
  have hnamed : ∀ id, Named id t.db ↔ Named id s.db := fun id => by
    rw [named_place, named_place, hdb]
  have hrow : ∀ row ∈ t.db, ∃ row' ∈ s.db, row'.place = row.place := fun row hrow => by
    rw [← mem_map, ← hdb]
    exact mem_map_of_mem hrow
  refine ⟨?_, ?_, fun v hv row hr => ?_, fun v w hv hw id hvd hwd => ?_, fun v hv id hvd => ?_, ?_⟩
  · rw [turn_db, turn_broker]
    intro row hr x hx hid
    obtain ⟨row', hr', he⟩ := hrow row hr
    simp only [Row.place, Prod.mk.injEq] at he
    rw [← he.2.1, ← he.2.2.2]
    exact h.agree row' hr' x hx (hid.trans he.1.symm)
  · rw [turn_db, turn_broker]
    intro row hr
    obtain ⟨row', hr', he⟩ := hrow row hr
    simp only [Row.place, Prod.mk.injEq] at he
    rw [← he.2.1, ← he.2.2.1, ← he.2.2.2]
    exact h.rows row' hr'
  · rw [turn_db, hdb]
    rcases calls_turn.1 hv with ⟨w, hw, rfl⟩ | hv
    · exact hrows w hw row hr
    · exact h.restoring v (hcalls v hv) row hr
  · rcases calls_turn.1 hv with ⟨w₁, hw₁, rfl⟩ | hv <;>
      rcases calls_turn.1 hw with ⟨w₂, hw₂, rfl⟩ | hw
    · rw [hw₁] at hw₂
      rw [Option.some.inj hw₂]
    · exact absurd hwd ((hdraw w₁ id hw₁ hvd).2 w (hcalls w hw))
    · exact absurd hvd ((hdraw w₂ id hw₂ hwd).2 v (hcalls v hv))
    · exact h.single v w (hcalls v hv) (hcalls w hw) id hvd hwd
  · rw [turn_db, hnamed]
    rcases calls_turn.1 hv with ⟨w, hw, rfl⟩ | hv
    · exact (hdraw w id hw hvd).1
    · exact h.unnamed v (hcalls v hv) id hvd
  · rw [turn_broker]
    intro v hv body ip id secret hw j p k ah tok th hl
    obtain ⟨hv, hl⟩ := hb.old hv hl
    exact h.created v (ht hv) body ip id secret hw j p k ah tok th hl

lemma stored {j k tok ah th ip secret : Bytes} {p : ℕ} {body : TunnelCreate}
    (hu : u ∈ s.tasks) (hw : u.wait = .create body ip id secret)
    (hl : s.answers.lookup u.ref = some (.reply (.created j p k ah tok th)))
    (ht : t.db = s.db ++ [newRow cfg cap s.now body ip id secret p ah th]) (htw : t.wait = none) :
    PortInv ((s.resumed u).turn t) := by
  obtain ⟨hpf, hports⟩ := h.created u hu body ip id secret hw j p k ah tok th hl
  have hcalls : ∀ v, Calls ((s.resumed u).turn t) v → Calls s v ∧ v ≠ u := by
    intro v hv
    rcases calls_turn.1 hv with ⟨w, hwt, -⟩ | hv | hv
    · rw [htw] at hwt
      cases hwt
    · exact ⟨.inl (mem_del.1 hv).1, fun he => (mem_del.1 hv).2 (by rw [he]; rfl)⟩
    · exact ⟨.inr hv, fun he => hb.not_sent hl (he ▸ hv)⟩
  have hmem : ∀ {row}, row ∈ t.db →
      row ∈ s.db ∨ row = newRow cfg cap s.now body ip id secret p ah th := by
    intro row hrow
    rw [ht, mem_append, mem_singleton] at hrow
    exact hrow
  refine ⟨?_, ?_, fun v hv row hr => ?_, fun v w hv hw => ?_, fun v hv id' hvd => ?_, ?_⟩
  · rw [turn_db, turn_broker]
    intro row hrow x hx hid
    rcases hmem hrow with hrow | rfl
    · exact h.agree row hrow x hx hid
    · exact hports x hx hid
  · rw [turn_db, turn_broker]
    intro row hrow
    rcases hmem hrow with hrow | rfl
    · exact h.rows row hrow
    · exact hpf
  · rw [turn_db, ht, map_append]
    exact mem_append_left _ (h.restoring v (hcalls v hv).1 row hr)
  · exact h.single v w (hcalls v hv).1 (hcalls w hw).1
  · rw [turn_db]
    rintro ⟨row, hrow, hid⟩
    obtain ⟨hc, hne⟩ := hcalls v hv
    rcases hmem hrow with hrow | rfl
    · exact h.unnamed v hc id' hvd ⟨row, hrow, hid⟩
    · -- nobody else has drawn the id of the new row
      refine hne (h.single v u hc (.inl hu) id ?_ (by rw [hw]; rfl))
      rw [hvd]
      exact congrArg some hid.symm
  · rw [turn_answers, turn_broker]
    intro v hv body ip id secret hw j p k ah tok th hl
    rcases mem_turn_tasks.1 hv with ⟨w, hwt, -⟩ | hv
    · rw [htw] at hwt
      cases hwt
    · exact h.created v (mem_del.1 hv).1 body ip id secret hw j p k ah tok th hl

variable {d : Draw}

lemma new_record {req : CreateReq} {x : Record}
    (hu : u ∈ s.sent) (hk : u.wait.call = .createTunnel req)
    (hx : NewRecord s.broker req x) (hi : s.broker.RegistryInv)
    (h16 : s.broker.cfg.publicPortEnd < 2 ^ 16) (hf : portsFree s (.exec u.ref d) = true)
    (hrow : row ∈ s.db) (hid : x.id = row.tunnelId) :
    x.port = row.publicPort ∧ x.proto = row.protocol := by
  rcases call_create hk with ⟨body, ip, id, secret, hw, rfl⟩ | ⟨row₀, rest, hw, rfl⟩
  · refine absurd ⟨row, hrow, ?_⟩ (h.unnamed u (.inr hu) id (by rw [hw]; rfl))
    exact hid.symm.trans hx.id
  · -- the row in hand is the one in the table, but for what does not matter here
    obtain ⟨row', hrow', hpl⟩ := mem_map.1
      (h.restoring u (.inr hu) row₀ (by rw [hw]; exact mem_cons_self))
    simp only [Row.place, Prod.mk.injEq] at hpl
    obtain ⟨h1, h2, h3, h4⟩ := hpl
    obtain rfl : row' = row :=
      inj_on_of_nodup_map hb.rows hrow' hrow (h1.trans (hx.id.symm.trans hid))
    have hp := h.rows row' hrow'
    rw [h2, h3, h4] at hp
    rw [h4, h2]
    refine ⟨hx.restored hi hp h16 fun y hy => ?_, hx.proto⟩
    obtain ⟨tun, htun, hreg, rfl⟩ := mem_records.1 hy
    have hall := all_eq_true.1 hf u hu
    simp only [hw, ne_eq, not_true_eq_false, decide_false, Bool.false_or] at hall
    have := all_eq_true.1 hall tun htun
    simp only [hreg, Bool.not_true, Bool.false_or, or_eq_true, decide_eq_true_eq] at this
    exact or_assoc.1 this

lemma exec {a : Answer} {b : Broker}
    (hu : u ∈ s.sent) (he : Effect s.broker u.wait.call b.records a)
    (hcfg : (s.executed u b a).broker.cfg = s.broker.cfg) (hi : s.broker.RegistryInv)
    (h16 : s.broker.cfg.publicPortEnd < 2 ^ 16) (hf : portsFree s (.exec u.ref d) = true) :
    PortInv (s.executed u b a) := by
  have hcalls : ∀ v, v ∈ s.tasks ∨ v ∈ del u.ref s.sent → Calls s v := fun v hv =>
    hv.imp_right fun hv => (mem_del.1 hv).1
  -- a record is an old one as far as its port goes, or the call has created it
  have hrec : ∀ y ∈ b.records, (∃ x ∈ s.broker.records, (x.id, x.port, x.proto) =
      (y.id, y.port, y.proto)) ∨ ∃ req, u.wait.call = .createTunnel req ∧
      NewRecord s.broker req y := by
    intro y hy
    refine (he.kept (g := fun x => (x.id, x.port, x.proto)) (fun _ _ => rfl)
      (fun cred _ _ => by cases cred <;> rfl) hy).imp_right ?_
    rintro ⟨req, _, _, hk, hx, -⟩
    exact ⟨req, hk, hx⟩
  refine ⟨fun row hrow y hy hid => ?_, ?_, fun v hv => h.restoring v (hcalls v hv),
    fun v w hv hw => h.single v w (hcalls v hv) (hcalls w hw),
    fun v hv => h.unnamed v (hcalls v hv),
    fun v hv body ip id secret hw j p k ah tok th hl => ?_⟩
  · rcases hrec y hy with ⟨x, hx, hxy⟩ | ⟨req, hk, hx⟩
    · simp only [Prod.mk.injEq] at hxy
      rw [← hxy.2.1, ← hxy.2.2]
      exact h.agree row hrow x hx (hxy.1.trans hid)
    · exact h.new_record hb hu hk hx hi h16 hf hrow hid
  · rw [hcfg]
    exact h.rows
  · rw [hb.answer_exec hu hv] at hl
    rw [hcfg]
    split_ifs at hl with hvu
    · cases hl
      rw [← hvu, hw] at he
      obtain ⟨x, hx, hrs, -, -, rfl⟩ := he.created_inv
      refine ⟨hx.portFor hb.range, fun y (hy : y ∈ b.records) hid => ?_⟩
      rw [hrs] at hy
      rcases mem_cons.1 hy with rfl | hy
      · exact ⟨rfl, hx.proto⟩
      · exact absurd (hid.trans hx.id.symm) (hx.fresh y hy)
    · obtain ⟨hpf, hports⟩ := h.created v hv body ip id secret hw j p k ah tok th hl
      refine ⟨hpf, fun y hy hid => ?_⟩
      rcases hrec y hy with ⟨x, hx, hxy⟩ | ⟨req, hk, hx⟩
      · simp only [Prod.mk.injEq] at hxy
        rw [← hxy.2.1, ← hxy.2.2]
        exact hports x hx (hxy.1.trans hid)
      · -- the id of a creation in progress is nobody else's, and no row has it
        rcases call_create hk with ⟨_, _, id', _, hwu, rfl⟩ | ⟨row₀, rest, hwu, rfl⟩
        · refine absurd (h.single v u (.inl hv) (.inr hu) id (by rw [hw]; rfl) ?_) hvu
          rw [hwu, ← hid, hx.id]
          rfl
        · obtain ⟨row', hrow', hpl⟩ := mem_map.1
            (h.restoring u (.inr hu) row₀ (by rw [hwu]; exact mem_cons_self))
          simp only [Row.place, Prod.mk.injEq] at hpl
          refine absurd ⟨row', hrow', ?_⟩ (h.unnamed v (.inl hv) id (by rw [hw]; rfl))
          rw [hpl.1, ← hid, hx.id]
          rfl

lemma resume {o : Outcome} (hu : u ∈ s.tasks) (hr : o.result (s.answers.lookup u.ref) = some r)
    (hd : Done cfg cap s.now s.db r u.wait t) : PortInv ((s.resumed u).turn t) := by
  rcases hd.map (g := Row.place) (fun _ _ => rfl) (fun _ => rfl)
    (fun _ cred _ => by cases cred <;> rfl) with
    hdb | ⟨body, ip, id, secret, j, p, k, ah, tok, th, hw, he, -, hdb, htw⟩
  · refine h.turn hb (fun _ hv => (mem_del.1 hv).1) hdb
      (fun w hw row hrow => ?_) fun w id hw hdr => ?_
    · cases hre : w.restoring with
      | true =>
        exact h.restoring u (.inl hu) row ((hd.restoring hw hre).2.2.2 row hrow)
      | false =>
        rw [rows_of_not_restoring hre] at hrow
        cases hrow
    · rw [hd.no_draw hw] at hdr
      cases hdr
  · subst he
    exact h.stored hb hu hw (result_ok hr) hdb htw

lemma step (hn : newIds s i = true)
    (hf : portsFree s i = true) (h1 : 1 ≤ s.broker.cfg.publicPortStart)
    (h16 : s.broker.cfg.publicPortEnd < 2 ^ 16) (hs : Api.step cfg cap digest s i = some s') :
    PortInv s' := by
  have hcfg := hb.cfg_step hs
  have hi : s.broker.RegistryInv := by
    obtain ⟨tr, ht, hok⟩ := hb.broker
    exact .of_trace ht hok h1
  cases hb.does hs with
  | tick => exact h.less rfl (.refl _) (.refl _)
  | request hq =>
    refine h.turn hb (.refl _) (hq.map fun _ _ => rfl) ?_ ?_
    · intro w hw
      rw [rows_of_not_restoring (hq.not_restoring hw)]
      simp
    · intro w id hw hdr
      cases hq with
      | refused _ | renewed _ => cases hw
      | begins hbeg =>
        cases hw
        cases hbeg with
        | create =>
          cases hdr
          simp only [newIds, and_eq_true, all_eq_true, mem_append, decide_eq_true_eq] at hn
          exact ⟨fun ⟨row, hrow, he⟩ => hn.1 row hrow he, hn.2⟩
        | _ => cases hdr
  | idle => exact h
  | reap _ _ =>
    refine h.turn hb (.refl _) rfl ?_ ?_
    · simp [Wait.rows]
    · rintro _ _ ⟨⟩ ⟨⟩
  | exec hu he => exact h.exec hb hu he hcfg hi h16 hf
  | drop hu => exact h.less rfl (.refl _) fun _ hv => (mem_del.1 hv).1
  | resume hu hr hd => exact h.resume hb hu hr hd
  | broker he => exact h.less hcfg (he ▸ .refl _) (.refl _)
  | brokerRestart => exact h.less rfl (nil_subset _) (nil_subset _)
  | apiRestart =>
    refine h.turn hb (nil_subset _) rfl (fun w hw row hrow => ?_) fun w id hw hdr => ?_
    · cases hw
      exact mem_map_of_mem (mem_restorable hrow)
    · cases hw
      cases hdr

end

end

lemma init (hi : Init s) : PortInv s := by
  obtain ⟨⟨c, hr, hc⟩, he⟩ := hi
  rw [hc] at he
  subst he
  exact ⟨by simp, by simp, by simp [Calls], by simp [Calls], by simp [Calls], by simp⟩

end PortInv

structure PortsAgree (s : State) : Prop where
  same : ∀ row ∈ s.db, ∀ tun ∈ s.broker.tunnels, tun.registered = true →
    tun.id = row.tunnelId → tun.publicPort = row.publicPort
  distinct : ∀ row ∈ s.db, ∀ row' ∈ s.db, row.tunnelId ≠ row'.tunnelId →
    row.protocol = row'.protocol →
    (∃ tun ∈ s.broker.tunnels, tun.registered = true ∧ tun.id = row.tunnelId) →
    (∃ tun ∈ s.broker.tunnels, tun.registered = true ∧ tun.id = row'.tunnelId) →
    row.publicPort = row'.publicPort → row.publicPort = 0

lemma PortInv.agrees (h : PortInv s) (hi : s.broker.RegistryInv) : PortsAgree s := by
  have hag : ∀ {row : Row} {tun : Tunnel}, row ∈ s.db → tun ∈ s.broker.tunnels →
      tun.registered = true → tun.id = row.tunnelId →
      tun.publicPort = row.publicPort ∧ tun.proto = row.protocol := fun hrow ht hreg hid =>
    h.agree _ hrow _ (mem_records.2 ⟨_, ht, hreg, rfl⟩) hid
  refine ⟨fun row hrow tun ht hreg hid => (hag hrow ht hreg hid).1, ?_⟩
  rintro row hrow row' hrow' hne hp ⟨tun, ht, hreg, hid⟩ ⟨tun', ht', hreg', hid'⟩ hport
  obtain ⟨h1, h2⟩ := hag hrow ht hreg hid
  obtain ⟨h1', h2'⟩ := hag hrow' ht' hreg' hid'
  rw [← h1]
  refine hi.port_eq (mem_entries.2 ⟨tun, ht, hreg, rfl⟩) (mem_entries.2 ⟨tun', ht', hreg', rfl⟩)
    (fun he => hne ?_) (h2.trans (hp.trans h2'.symm)) (h1.trans (hport.trans h1'.symm))
  rw [← hid, ← hid']
  exact congrArg Entry.id he

/-- In every run in which the ids that are drawn are new and no tunnel is restored while another one
has its port: the ports of the rows and the tunnels agree. -/
theorem ports_agree {tr : List (State × Label)} (h : Trace (Api.step cfg cap digest) Init tr s)
    (hok : ∀ p ∈ tr, newIds p.1 p.2 = true ∧ portsFree p.1 p.2 = true)
    (h1 : 1 ≤ s.broker.cfg.publicPortStart) (h16 : s.broker.cfg.publicPortEnd < 2 ^ 16) :
    PortsAgree s := by
  obtain ⟨hb, hp⟩ := h.inv_of_ok
    (I := fun s => Base digest s ∧ (1 ≤ s.broker.cfg.publicPortStart →
      s.broker.cfg.publicPortEnd < 2 ^ 16 → PortInv s))
    (fun s hi => ⟨.init hi, fun _ _ => .init hi⟩)
    (fun s i s' ⟨hb, hp⟩ (hok : newIds s i = true ∧ portsFree s i = true) hs =>
      ⟨hb.step hs, fun h1 h16 => by
        rw [hb.cfg_step hs] at h1 h16
        exact (hp h1 h16).step hb hok.1 hok.2 h1 h16 hs⟩) hok
  obtain ⟨tr', ht, hcl⟩ := hb.broker
  exact (hp h1 h16).agrees (.of_trace ht hcl h1)

theorem ports_agree_restored : ∃ tr s, Trace smallStep Init tr s ∧
    s.db.map (·.publicPort) = [1, 2] ∧ (s.broker.tunnels.map (·.publicPort)) = [2, 1] ∧
    PortsAgree s := by
  obtain ⟨tr, s, h, hok, h1, h16, hd, ht⟩ := exists_trace smallStep Init smallState_init
    [asksFor [65], .exec 0 {}, .resume 0 .answered true, asksFor [66], .exec 1 {},
      .resume 1 .answered true, .brokerRestart, .apiRestart, .exec 2 {}, .resume 2 .answered true,
      .exec 3 {}, .resume 3 .answered true, .exec 4 {}, .resume 4 .answered true]
    (fun r => (∀ p ∈ r.1, newIds p.1 p.2 = true ∧ portsFree p.1 p.2 = true) ∧
      1 ≤ r.2.broker.cfg.publicPortStart ∧ r.2.broker.cfg.publicPortEnd < 2 ^ 16 ∧
      r.2.db.map (·.publicPort) = [1, 2] ∧ r.2.broker.tunnels.map (·.publicPort) = [2, 1])
    (by decide)
  exact ⟨tr, s, h, hd, ht, ports_agree h hok h1 h16⟩

/-- The broker starts again and gives the port to a new tunnel before the API does: two live rows
publish the same. -/
theorem ports_agree_lost : ∃ tr s, Trace smallStep Init tr s ∧
    ∃ row ∈ s.db, ∃ row' ∈ s.db, row.live s.now = true ∧ row'.live s.now = true ∧
      row.tunnelId ≠ row'.tunnelId ∧ row.protocol = row'.protocol ∧
      row.publicPort = row'.publicPort ∧ row.publicPort ≠ 0 ∧
      (∃ tun ∈ s.broker.tunnels, tun.registered = true ∧ tun.id = row.tunnelId ∧
        tun.publicPort ≠ row.publicPort) ∧
      ∃ tun ∈ s.broker.tunnels, tun.registered = true ∧ tun.id = row'.tunnelId :=
  exists_run smallState_init
    [asksFor [65], .exec 0 {}, .resume 0 .answered true, .brokerRestart, asksFor [66], .exec 1 {},
      .resume 1 .answered true, .apiRestart, .exec 2 {}, .resume 2 .answered true, .exec 3 {},
      .resume 3 .answered true] (by decide)

end TunnelMate.Api
