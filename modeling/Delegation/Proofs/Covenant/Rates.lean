import Delegation.Config.Matchers
import Delegation.Proofs.Covenant.Chain
import Delegation.Proofs.Policy.Rates

namespace Delegation

namespace Covenant

section

variable [Matchers] {chain : List Covenant} {ancestor descendant : Covenant} {i j : Nat} {action : String}
  {limit : LimitRule}

/-- A limit keeps its action within its rate in every covenant after its own. -/
theorem limitsWithin_run (h : defects chain = []) (hij : i < j) (hi : chain[i]? = some ancestor)
    (hj : chain[j]? = some descendant) (hl : limit ∈ ancestor.document.limits)
    (hd : limit.describes action = true) : descendant.document.LimitsWithin action limit := by
  have hlt : i + 1 < chain.length := by
    have hlen := (List.getElem?_eq_some_iff.1 hj).1
    omega
  have hnext : chain[i + 1]? = some chain[i + 1] := List.getElem?_eq_getElem hlt
  have hfirst : chain[i + 1].document.LimitsWithin action limit := by
    have hx := excesses_of_defects h hi hnext
    exact Document.limitsWithin_of_limit (Document.limitExcesses_eq_nil_of_excesses hx hl) hd
  refine handed_down (·.document.LimitsWithin action limit) hij hnext hj hfirst ?_
  intro k c c' _ _ hc hc' hwithin
  exact hwithin.of_parent (excesses_of_defects h hc hc')

/-- Whatever a limit of one covenant is for, some limit of each later covenant governs, and at no higher
rate. -/
theorem limits_only_tighten (chain : List Covenant) (h : defects chain = []) (i j : Nat) (hij : i < j)
    (ancestor descendant : Covenant) (hi : chain[i]? = some ancestor)
    (hj : chain[j]? = some descendant) (action : String) (limit : LimitRule)
    (hl : limit ∈ ancestor.document.limits) (hd : limit.describes action = true) :
    ∃ g, descendant.document.governingLimit? action = some g ∧
      g.count * limit.period ≤ limit.count * g.period :=
  (limitsWithin_run h hij hi hj hl hd).governingLimit?

end

def limiting (action : String) (count period : Nat) : LimitRule := ⟨action, count, period, .high, 1⟩

def hourlyCalls : Document where
  statements := [.limit (limiting "api.*" 100 3600)]
  wellFormed := by decide +kernel

def minuteCalls : Document where
  statements := [.limit (limiting "**" 50 3600), .limit (limiting "api.call" 1 60)]
  wellFormed := by decide +kernel

def burstCalls : Document where
  statements := [.limit (limiting "api.call" 2 240), .limit (limiting "**" 40 3600)]
  wellFormed := by decide +kernel

theorem limits_only_tighten_burstCalls :
    let chain := [granted 1 none hourlyCalls, granted 2 (some 1) minuteCalls,
      granted 3 (some 2) burstCalls]
    defects chain = [] ∧ limiting "api.*" 100 3600 ∈ hourlyCalls.limits ∧
      (limiting "api.*" 100 3600).describes "api.call" = true ∧
      ∃ g, burstCalls.governingLimit? "api.call" = some g ∧ g.count * 3600 ≤ 100 * g.period := by
  have hdefects : defects [granted 1 none hourlyCalls, granted 2 (some 1) minuteCalls,
      granted 3 (some 2) burstCalls] = [] := by decide +kernel
  have hmem : limiting "api.*" 100 3600 ∈ hourlyCalls.limits := .head _
  have hdescribes : (limiting "api.*" 100 3600).describes "api.call" = true := by decide +kernel
  exact ⟨hdefects, hmem, hdescribes,
    limits_only_tighten _ hdefects 0 2 Nat.two_pos _ _ rfl rfl "api.call" _ hmem hdescribes⟩

end Covenant

end Delegation
