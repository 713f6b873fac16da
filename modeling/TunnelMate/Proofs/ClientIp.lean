import TunnelMate.ClientIp

/-!
# No client chooses the address it is charged to

What a client sends stands in front of the entry that the proxy appends, and only the last entry
counts.
-/

namespace TunnelMate.ClientIp

/-- The header of a request to which a proxy has appended the entry `e`. -/
inductive Forwarded (e : List Char) : List Char → Prop
  | alone : Forwarded e e
  | behind (sent : List Char) : Forwarded e (sent ++ ',' :: e)

variable {ipAddress : List Char → Option Address} {str : Address → List Char}

lemma Forwarded.getLast? {e x : List Char} (hx : Forwarded e x) (hc : ',' ∉ e)
    (hne : strip e ≠ []) :
    (((x.splitOn ',').map strip).filter (· ≠ [])).getLast? = some (strip e) := by
  obtain ⟨l, hl⟩ : ∃ l, x.splitOn ',' = l ++ [e] := by
    have he : e.splitOn ',' = [e] := List.splitOn_eq_singleton hc
    rcases hx with _ | sent
    · exact ⟨[], he⟩
    · exact ⟨sent.splitOn ',', by rw [List.splitOn_append_cons_self, he]⟩
  simp [hl, hne]

/-- An untrusted peer is charged under its own address, whatever header it sends. A request through
a trusted proxy is charged to the address that the proxy has appended, whatever stands in front. -/
theorem client_ip_independent (host : Option (List Char)) :
    (host.getD "unknown".toList ∉ trustedProxies →
      ∀ x, clientIp ipAddress str host x = host.getD "unknown".toList) ∧
    (host.getD "unknown".toList ∈ trustedProxies →
      ∀ e a, ',' ∉ e → strip e ≠ [] → ipAddress (strip e) = some a →
      ∀ x, Forwarded e x → clientIp ipAddress str host x = str a.folded) := by
  refine ⟨fun h x => if_pos h, fun h e a hc hne ha x hx => ?_⟩
  simp only [clientIp, if_neg (not_not.2 h), hx.getLast? hc hne, ha]

theorem client_ip_independent_one :
    clientIp (fun s => if s = "::ffff:0.0.0.9".toList then some (.v6 0xFFFF00000009 none) else none)
      (fun a => if a matches .v4 9 then "0.0.0.9".toList else []) (some "::1".toList)
      "1.2.3.4,, ::ffff:0.0.0.9".toList = "0.0.0.9".toList :=
  (client_ip_independent (some "::1".toList)).2 (by decide) " ::ffff:0.0.0.9".toList
    (.v6 0xFFFF00000009 none) (by decide) (by decide) (if_pos (by decide)) _
    (.behind "1.2.3.4,".toList)

end TunnelMate.ClientIp
