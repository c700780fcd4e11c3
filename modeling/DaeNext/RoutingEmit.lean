/-
What it means to append match sets to a plan.

Compiling appends, and what a match set answers must not depend on what is
appended later: a domain match set asks for the bit of its own position, an LPM
match set for the prefix set of its index. `Emits` says that the match sets just
appended are the given cells (`LibMatchChain`) in the plan at hand and in every
plan that extends it. It composes, so there is one lemma for each way in which
match sets are appended: alternatives, a prefix set, a domain set.
-/
import DaeNext.RoutingCompile
import Mathlib.Data.List.GetD

set_option autoImplicit false

namespace DaeNext.RoutingEmit

open ConfigAst CoreTypes Net RoutingPrefix RoutingDomain RoutingUserspace RoutingPlan MatchChain List
open RoutingPlanMatcher RoutingCompile

/-! ## Decoding what was encoded -/

variable {plan : ResidentRoutingPlan} {query : Query} {raw : List UInt8} {not : Bool}
  {match_type : UInt8} {outbound : OutboundSpec} {kind : RoutingMatchKind}

theorem match_kind_append (rest : List UInt8) (hraw : raw.length = 16) :
    match_kind match_type (raw ++ rest) = match_kind match_type raw := by
  -- no kind is read from beyond the sixteen bytes of value
  have htake : ∀ n ≤ 16, (raw ++ rest).take n = raw.take n := fun n hn =>
    take_append_of_le_length (by omega)
  have hdrop : ((raw ++ rest).drop 2).take 2 = (raw.drop 2).take 2 := by
    rw [drop_append_of_le_length (by omega), take_append_of_le_length (by rw [length_drop]; omega)]
  have hhead : (raw ++ rest).getD 0 0 = raw.getD 0 0 := by
    rw [getD_append _ _ _ _ (by omega)]
  simp only [match_kind, htake 4 (by omega), htake 2 (by omega), htake 16 (by omega), hdrop, hhead]

theorem match_set_typed_match_set (hraw : raw.length = 16)
    (hkind : match_kind match_type raw = .ok kind) :
    match_set_typed (match_set raw not match_type outbound)
      = .ok { kind, outbound := ⟨outbound.id⟩, not, mark := outbound.mark,
              must := outbound.must } := by
  have hnot : (match_set raw not match_type outbound).bytes.getD 16 0 = not.toUInt8 := by
    simp [match_set, hraw]
  have htype : (match_set raw not match_type outbound).bytes.getD 17 0 = match_type := by
    simp [match_set, hraw]
  have hflag : (not.toUInt8 != 0) = not := by
    cases not <;> rfl
  have hbytes : match_kind match_type (match_set raw not match_type outbound).bytes = .ok kind := by
    rw [match_set, append_assoc, match_kind_append _ hraw, hkind]
  rw [match_set_typed, hnot, htype, hbytes, hflag]
  rfl

/-- A match set as the compiler makes them: through `match_set`, with sixteen bytes
of value and a type that has a kind. -/
def Written (set : MatchSetBytes) : Prop :=
  ∃ raw not match_type outbound kind, raw.length = 16 ∧ match_kind match_type raw = .ok kind
    ∧ set = match_set raw not match_type outbound

theorem Written.decodes {set : MatchSetBytes} (h : Written set) :
    ∃ typed, match_set_typed set = .ok typed := by
  obtain ⟨raw, not, match_type, outbound, kind, hraw, hkind, rfl⟩ := h
  exact ⟨_, match_set_typed_match_set hraw hkind⟩

def out_link (outbound : OutboundSpec) : MatchChain.Link MatchOutcome :=
  spec_link ⟨outbound.id⟩ outbound.mark outbound.must

theorem plan_cell_match_set {index : Nat} (hraw : raw.length = 16)
    (hkind : match_kind match_type raw = .ok kind) :
    plan_cell plan query index (match_set raw not match_type outbound)
      = ⟨kind_hit plan query index kind, not, out_link outbound⟩ := by
  rw [plan_cell, match_set_typed_match_set hraw hkind]
  rfl

@[simp] theorem out_link_or : out_link (logical_outbound .LOGICAL_OR) = .or := rfl

/-! ## Growing plans -/

/-- `later` is `plan` with more behind it, and the domain sets behind it belong to
match sets behind it. -/
structure Extends (plan later : ResidentRoutingPlan) : Prop where
  match_sets : plan.match_sets <+: later.match_sets
  lpm_sets : plan.lpm_sets <+: later.lpm_sets
  domain_sets : ∃ more, later.domain_sets = plan.domain_sets ++ more
    ∧ ∀ set ∈ more, plan.match_sets.length ≤ set.rule_index

theorem Extends.refl (plan : ResidentRoutingPlan) : Extends plan plan :=
  ⟨prefix_rfl, prefix_rfl, [], by simp, by simp⟩

theorem Extends.trans {a b c : ResidentRoutingPlan} (hab : Extends a b) (hbc : Extends b c) :
    Extends a c := by
  obtain ⟨ds, hds, hge⟩ := hab.domain_sets
  obtain ⟨ds', hds', hge'⟩ := hbc.domain_sets
  refine ⟨hab.match_sets.trans hbc.match_sets, hab.lpm_sets.trans hbc.lpm_sets, ds ++ ds',
    by rw [hds', hds, append_assoc], fun set hset => ?_⟩
  -- what comes behind `b` comes behind `a` all the more
  have hlen := hab.match_sets.length_le
  rcases mem_append.mp hset with h | h
  · exact hge set h
  · exact hlen.trans (hge' set h)

/-- Domain sets belong to match sets of the plan, and so do prefix sets, of which
there are therefore no more than match sets. -/
structure Scoped (plan : ResidentRoutingPlan) : Prop where
  domain_sets : ∀ set ∈ plan.domain_sets, set.rule_index < plan.match_sets.length
  lpm_sets : plan.lpm_sets.length ≤ plan.match_sets.length

/-- From `plan` to `later`, match sets with these cells were appended, and they are
these cells in every plan the compiler may still arrive at. -/
structure Emits (query : Query) (plan later : ResidentRoutingPlan)
    (cells : List (MatchChain.Cell MatchOutcome)) : Prop where
  ext : Extends plan later
  in_scope : Scoped later
  sets : ∃ sets, later.match_sets = plan.match_sets ++ sets
    ∧ (∀ set ∈ sets, Written set)
    ∧ ∀ final, Extends later final → final.lpm_sets.length ≤ 2 ^ 32 →
        plan_cells final query plan.match_sets.length sets = cells

variable (query) in
theorem Emits.nil (h : Scoped plan) : Emits query plan plan [] :=
  ⟨.refl plan, h, [], by simp, by simp, fun _ _ _ => rfl⟩

theorem Emits.append {a b c : ResidentRoutingPlan} {front back : List (MatchChain.Cell MatchOutcome)} (hab : Emits query a b front)
    (hbc : Emits query b c back) : Emits query a c (front ++ back) := by
  obtain ⟨sets, hsets, hdec, hcells⟩ := hab.sets
  obtain ⟨more, hmore, hdec', hcells'⟩ := hbc.sets
  refine ⟨hab.ext.trans hbc.ext, hbc.in_scope, sets ++ more,
    by rw [hmore, hsets, append_assoc], ?_, fun final hext hlen => ?_⟩
  · intro set hset
    rcases mem_append.mp hset with h | h
    · exact hdec set h
    · exact hdec' set h
  -- the second half sits at the positions behind the first, and `final` extends both
  · have hb : b.match_sets.length = a.match_sets.length + sets.length := by
      rw [hsets, length_append]
    rw [plan_cells_append, hcells final (hbc.ext.trans hext) hlen, ← hb, hcells' final hext hlen]

/-! ## The three ways of appending -/

theorem plan_cells_alternatives {α : Type} {raw : α → List UInt8} {hit : α → Bool}
    (hraw : ∀ x, (raw x).length = 16 ∧ ∃ kind, match_kind match_type (raw x) = .ok kind
      ∧ ∀ index, kind_hit plan query index kind = hit x)
    (xs : List α) (index : Nat) :
    plan_cells plan query index (alternatives not match_type outbound (xs.map raw))
      = block not (out_link outbound) (xs.map hit) := by
  induction xs generalizing index with
  | nil => rfl
  | cons x xs ih =>
    obtain ⟨hlen, kind, hkind, hhit⟩ := hraw x
    -- the last alternative has the outbound, the ones before it say `or`
    cases xs with
    | nil =>
      rw [map_cons, map_nil, alternatives, plan_cells, plan_cells,
        plan_cell_match_set hlen hkind, hhit]
      rfl
    | cons y ys =>
      have hcons : alternatives not match_type outbound ((x :: y :: ys).map raw)
          = match_set (raw x) not match_type (logical_outbound .LOGICAL_OR)
            :: alternatives not match_type outbound ((y :: ys).map raw) := rfl
      rw [hcons, plan_cells, ih, plan_cell_match_set hlen hkind, hhit, out_link_or]
      rfl

theorem mem_alternatives {raws : List (List UInt8)} {set : MatchSetBytes}
    (hset : set ∈ alternatives not match_type outbound raws) :
    ∃ raw ∈ raws, ∃ out, set = match_set raw not match_type out := by
  induction raws with
  | nil => simp [alternatives] at hset
  | cons raw raws ih =>
    cases raws with
    | nil =>
      have : set = match_set raw not match_type outbound := by
        simpa [alternatives] using hset
      exact ⟨raw, mem_cons_self, outbound, this⟩
    | cons next raws =>
      rw [alternatives] at hset
      · rcases mem_cons.mp hset with h | h
        · exact ⟨raw, mem_cons_self, _, h⟩
        · obtain ⟨r, hr, out, heq⟩ := ih h
          exact ⟨r, mem_cons_of_mem raw hr, out, heq⟩
      · simp

theorem emits_alternatives {α : Type} (hscoped : Scoped plan) (raw : α → List UInt8) (hit : α → Bool)
    (hraw : ∀ x, (raw x).length = 16 ∧ ∃ kind, match_kind match_type (raw x) = .ok kind
      ∧ ∀ final index, kind_hit final query index kind = hit x) (xs : List α) :
    Emits query plan
      (push_match_sets plan (alternatives not match_type outbound (xs.map raw)))
      (block not (out_link outbound) (xs.map hit)) := by
  have hgrow : Extends plan
      (push_match_sets plan (alternatives not match_type outbound (xs.map raw))) :=
    ⟨prefix_append _ _, prefix_rfl, [], by simp [push_match_sets], by simp⟩
  have hle := hgrow.match_sets.length_le
  refine ⟨hgrow, ⟨fun set hset => (hscoped.domain_sets set hset).trans_le hle,
    hscoped.lpm_sets.trans hle⟩, _, rfl, ?_, fun final _ _ => ?_⟩
  · intro set hset
    obtain ⟨_, hmem, out, rfl⟩ := mem_alternatives hset
    obtain ⟨x, -, rfl⟩ := mem_map.mp hmem
    obtain ⟨hlen, kind, hkind, -⟩ := hraw x
    exact ⟨raw x, not, match_type, out, kind, hlen, hkind, rfl⟩
  · refine plan_cells_alternatives (fun x => ?_) xs _
    obtain ⟨hlen, kind, hkind, hhit⟩ := hraw x
    exact ⟨hlen, kind, hkind, hhit final⟩

theorem raw_lpm_index (k : UInt32) : UInt32.ofNat (Wire.fromLe ((raw_lpm k).take 4)) = k :=
  Wire.ofNat_fromLe_u32 k

/-- A prefix set and the match set that refers to it. The index is the position
of the set, in the plan at hand and ever after. -/
theorem emits_lpm (hscoped : Scoped plan) {prefixes : List IpPrefix} (addr : Option IpAddr)
    (hkind : ∀ k, ∃ kind, match_kind match_type (raw_lpm k) = .ok kind
      ∧ ∀ final index, kind_hit final query index kind = plan_lpm_hit final k addr) :
    Emits query plan (add_lpm_match_set plan prefixes not match_type outbound)
      (block not (out_link outbound)
        [addr.any fun addr => prefixes.any (·.contains addr)]) := by
  have hraw : ∀ k, (raw_lpm k).length = 16 := by
    intro k
    rw [raw_lpm, length_append, Wire.le_length, length_replicate]
  have hgrow : Extends plan (add_lpm_match_set plan prefixes not match_type outbound) :=
    ⟨prefix_append _ _, prefix_append _ _, [], by simp [add_lpm_match_set], by simp⟩
  obtain ⟨kind, hk, hhit⟩ := hkind (UInt32.ofNat plan.lpm_sets.length)
  refine ⟨hgrow, ⟨fun set hset => (hscoped.domain_sets set hset).trans_le
    hgrow.match_sets.length_le, ?_⟩, _, rfl, ?_, fun final hext hlen => ?_⟩
  · have := hscoped.lpm_sets
    simp only [add_lpm_match_set, length_append, length_singleton]
    omega
  · intro set hset
    obtain rfl := mem_singleton.mp hset
    exact ⟨_, not, match_type, outbound, kind, hraw _, hk, rfl⟩
  · obtain ⟨more, hmore⟩ := hext.lpm_sets
    -- `final` has the new set, so its index is small enough not to wrap
    have hbound : plan.lpm_sets.length < final.lpm_sets.length := by
      rw [← hmore, add_lpm_match_set, length_append, length_append, length_singleton]
      omega
    have hindex : (UInt32.ofNat plan.lpm_sets.length).toNat = plan.lpm_sets.length := by
      rw [UInt32.toNat_ofNat', Nat.mod_eq_of_lt (by omega)]
    have hset : final.lpm_sets[plan.lpm_sets.length]? = some prefixes := by
      rw [← hmore, add_lpm_match_set]
      simp
    rw [plan_cells, plan_cells, plan_cell_match_set (hraw _) hk, hhit, plan_lpm_hit, hindex, hset]
    rfl

/-- A domain set and its match set. Older domain sets belong to earlier positions
and newer ones to later positions, so the position answers for this set alone. -/
theorem emits_domain (hscoped : Scoped plan) (values : SharedDomainSet) :
    Emits query plan
      { plan with
        domain_sets := plan.domain_sets ++ [⟨plan.match_sets.length, values⟩]
        match_sets := plan.match_sets
          ++ [match_set (List.replicate 16 0) not MATCH_TYPE_DOMAIN_SET outbound] }
      (block not (out_link outbound)
        [!query.domain.isEmpty && values.matches query.domain]) := by
  have hkind : match_kind MATCH_TYPE_DOMAIN_SET (List.replicate 16 0) = .ok .DomainSet := rfl
  refine ⟨⟨prefix_append _ _, prefix_rfl, [⟨plan.match_sets.length, values⟩], rfl,
    fun set hset => ?_⟩, ⟨fun set hset => ?_, ?_⟩, _, rfl, ?_, fun final hext hlen => ?_⟩
  · rw [mem_singleton.mp hset]
  · simp only [length_append, length_singleton]
    rcases mem_append.mp hset with h | h
    · have := hscoped.domain_sets set h
      omega
    · rw [mem_singleton.mp h]
      exact Nat.lt_succ_self _
  · have := hscoped.lpm_sets
    simp only [length_append, length_singleton]
    omega
  · intro set hset
    obtain rfl := mem_singleton.mp hset
    exact ⟨_, not, _, outbound, _, length_replicate, hkind, rfl⟩
  · obtain ⟨more, hmore, hge⟩ := hext.domain_sets
    have hnone : ∀ sets : List ResidentDomainSet, (∀ set ∈ sets, set.rule_index ≠ plan.match_sets.length) →
        (sets.any fun set => decide (set.rule_index = plan.match_sets.length)
          && set.values.matches query.domain) = false := by
      intro sets hsets
      rw [any_eq_false]
      intro set hset
      simp [hsets set hset]
    -- every earlier domain set has an earlier position, and every later one a later position
    have hold := hnone plan.domain_sets fun set hset => Nat.ne_of_lt (hscoped.domain_sets set hset)
    have hnew := hnone more fun set hset => (by have := hge set hset; simp at this; omega)
    rw [plan_cells, plan_cells, plan_cell_match_set length_replicate hkind, kind_hit, hmore]
    simp only [any_append, hold, hnew, any_cons, any_nil, decide_true,
      Bool.true_and, Bool.false_or, Bool.or_false, block]

end DaeNext.RoutingEmit
