/-
One key of one function, compiled.

`add_function_compiles` has a case for each arm of `add_function_match_sets` and
says the same in each: the match sets are a disjunction, and it holds when some
value matches. The lemmas before it are the arms, by what they have in common:
port ranges, prefix sets, one-byte flags, names, code points, domain sets.
-/
import DaeNext.RoutingEmit

set_option autoImplicit false

namespace DaeNext.RoutingCompileFunction

open ConfigAst CoreTypes Net RoutingPrefix RoutingDomain RoutingUserspace RoutingPlan Fallible Wire List
open RoutingPlanMatcher RoutingCompile RoutingEmit

/-! ## Values in bytes -/

section

variable {flag : String → Option UInt8} {what : String} {values : List String}

theorem foldlM_flags {start value : UInt8} (h : values.foldlM (fun value item =>
      match flag item with
      | some bit => .ok (value ||| bit)
      | none => .error s!"unsupported {what}: {item}") start = (.ok value : Except String UInt8))
    (got : UInt8) : (got &&& value != 0)
      = ((got &&& start != 0) || values.any fun item => (flag item).any fun bit => got &&& bit != 0) := by
  -- a bit is in the collected flags if it is in one of the two
  have hor : ∀ a b : UInt8, (got &&& (a ||| b) != 0) = ((got &&& a != 0) || (got &&& b != 0)) := by
    intro a b
    have hdistrib : got &&& (a ||| b) = (got &&& a) ||| (got &&& b) :=
      UInt8.toBitVec_inj.mp BitVec.and_or_distrib_left
    rw [hdistrib, Bool.eq_iff_iff]
    simp only [bne_iff_ne, Bool.or_eq_true, ne_eq, UInt8.or_eq_zero_iff]
    tauto
  induction values generalizing start with
  | nil =>
    cases h
    simp
  | cons item values ih =>
    obtain ⟨next, hnext, h⟩ := bind_ok h
    cases hflag : flag item with
    | none => simp [hflag] at hnext
    | some bit =>
      obtain rfl : start ||| bit = next := by simpa [hflag] using hnext
      rw [ih h, hor, any_cons, hflag, Bool.or_assoc]
      rfl

theorem parse_flags_ok {value : UInt8} (h : parse_flags flag what values = .ok value) (got : UInt8) :
    (got &&& value != 0) = values.any fun item => (flag item).any fun bit => got &&& bit != 0 := by
  obtain ⟨v, hv, h⟩ := bind_ok h
  split at h
  · cases h
  · cases h
    rw [foldlM_flags hv got]
    simp

end

theorem raw_ports_bounds (range : UInt16 × UInt16) :
    (raw_ports range).length = 16
      ∧ UInt16.ofNat (fromLe ((raw_ports range).take 2)) = range.1
      ∧ UInt16.ofNat (fromLe (((raw_ports range).drop 2).take 2)) = range.2 :=
  ⟨rfl, ofNat_fromLe_u16 _, ofNat_fromLe_u16 _⟩

theorem raw16_length (bytes : List UInt8) : (raw16 bytes).length = 16 := by
  rw [raw16, length_take, length_append, length_replicate]
  omega

/-! ## The arms -/

/-- A key and its values compile to a disjunction of them. -/
def Compiles (query : Query) (plan later : ResidentRoutingPlan) (not : Bool)
    (outbound : OutboundSpec) (holds : Bool) : Prop :=
  ∃ hits : List Bool, hits ≠ [] ∧ hits.any id = holds
    ∧ Emits query plan later (MatchChain.block not (out_link outbound) hits)

section

variable {query : Query} {plan : ResidentRoutingPlan} (hscoped : Scoped plan)
include hscoped

variable {values : List String} (match_type : UInt8) {not : Bool} {outbound : OutboundSpec}

theorem compiles_parsed {α : Type} (parse : String → Except String α) (raw : α → List UInt8)
    (hit : α → Bool) (holds : String → Bool) (hholds : ∀ val x, parse val = .ok x → hit x = holds val)
    (hraw : ∀ x, (raw x).length = 16 ∧ ∃ kind, match_kind match_type (raw x) = .ok kind
      ∧ ∀ final index, kind_hit final query index kind = hit x) (hvalues : values ≠ [])
    {xs : List α} (hxs : values.mapM parse = .ok xs) :
    Compiles query plan (push_match_sets plan (alternatives not match_type outbound (xs.map raw)))
      not outbound (values.any holds) := by
  refine ⟨xs.map hit, ?_, ?_, emits_alternatives hscoped raw hit hraw xs⟩
  · -- no value is lost in parsing, so there is an alternative
    intro h
    have hlen := mapM_length hxs
    rw [map_eq_nil_iff.mp h] at hlen
    exact hvalues (length_eq_zero_iff.mp hlen.symm)
  · rw [any_map]
    exact mapM_any (fun val _ x hx => hholds val x hx) hxs

theorem compiles_ports {port : Option UInt16}
    (htype : ∀ bytes, ∃ kind, match_kind match_type bytes = .ok kind
      ∧ ∀ final index, kind_hit final query index kind
        = port_between (UInt16.ofNat (fromLe (bytes.take 2)))
            (UInt16.ofNat (fromLe ((bytes.drop 2).take 2))) port) (hvalues : values ≠ [])
    {ranges : List (UInt16 × UInt16)} (hranges : values.mapM parse_port_range = .ok ranges) :
    Compiles query plan
      (push_match_sets plan (alternatives not match_type outbound (ranges.map raw_ports)))
      not outbound (values.any fun val => range_holds (parse_port_range val) port) := by
  refine compiles_parsed hscoped match_type parse_port_range raw_ports
    (fun range => port_between range.1 range.2 port) _ (fun val range hrange => ?_)
    (fun range => ?_) hvalues hranges
  · rw [hrange]
    rfl
  · obtain ⟨hlen, hstart, hlast⟩ := raw_ports_bounds range
    obtain ⟨kind, hkind, hhit⟩ := htype (raw_ports range)
    refine ⟨hlen, kind, hkind, fun final index => ?_⟩
    rw [hhit, hstart, hlast]

theorem compiles_lpm {addr : Option IpAddr}
    (htype : ∀ bytes, ∃ kind, match_kind match_type bytes = .ok kind
      ∧ ∀ final index, kind_hit final query index kind
        = plan_lpm_hit final (UInt32.ofNat (fromLe (bytes.take 4))) addr)
    {parse : String → Except String IpPrefix} {prefixes : List IpPrefix}
    (hprefixes : values.mapM parse = .ok prefixes) :
    Compiles query plan (add_lpm_match_set plan prefixes not match_type outbound) not outbound
      (values.any fun val => prefix_holds (parse val) addr) := by
  refine ⟨_, cons_ne_nil _ _, ?_, emits_lpm hscoped addr (fun k => ?_)⟩
  · rw [any_cons, any_nil, Bool.or_false, id]
    -- a packet without the address matches no prefix, however many there are
    cases addr with
    | none =>
      have : (values.any fun val => prefix_holds (parse val) none) = false := by
        rw [any_eq_false]
        intro val _
        unfold prefix_holds
        split <;> simp_all
      rw [this]
      rfl
    | some addr =>
      refine mapM_any (fun val _ pfx hpfx => ?_) hprefixes
      rw [hpfx]
      rfl
  · obtain ⟨kind, hkind, hhit⟩ := htype (raw_lpm k)
    refine ⟨kind, hkind, fun final index => ?_⟩
    rw [hhit, raw_lpm_index]

theorem compiles_flags (test : UInt8 → Bool)
    (htype : ∀ bytes, ∃ kind, match_kind match_type bytes = .ok kind
      ∧ ∀ final index, kind_hit final query index kind = test (bytes.getD 0 0)) (value : UInt8) :
    Compiles query plan
      (push_match_sets plan [match_set (raw_u8 value) not match_type outbound]) not outbound
      (test value) := by
  refine ⟨[test value], cons_ne_nil _ _, by simp,
    emits_alternatives hscoped raw_u8 test (fun v => ?_) [value]⟩
  obtain ⟨kind, hkind, hhit⟩ := htype (raw_u8 v)
  exact ⟨rfl, kind, hkind, hhit⟩

theorem compiles_pnames (hvalues : values ≠ []) :
    Compiles query plan (push_match_sets plan (alternatives not MATCH_TYPE_PROCESS_NAME outbound
        (values.map fun value => raw16 (Text.as_bytes value)))) not outbound
      (values.any fun val => query.process_name_bytes.any fun got =>
        got.head? != some 0 && raw16 (Text.as_bytes val) = got) := by
  refine ⟨_, by simpa using hvalues, by rw [any_map]; rfl,
    emits_alternatives hscoped _ _ (fun val => ?_) values⟩
  have hlen := raw16_length (Text.as_bytes val)
  refine ⟨hlen, .ProcessName (raw16 (Text.as_bytes val)), ?_, fun _ _ => rfl⟩
  change Except.ok (RoutingMatchKind.ProcessName ((raw16 (Text.as_bytes val)).take 16)) = _
  rw [take_of_length_le (by omega)]

theorem compiles_dscps (hvalues : values ≠ []) {dscps : List UInt8}
    (hdscps : values.mapM parse_dscp = .ok dscps) :
    Compiles query plan
      (push_match_sets plan (alternatives not MATCH_TYPE_DSCP outbound (dscps.map raw_u8)))
      not outbound (values.any fun val => dscp_holds (parse_dscp val) query.dscp) := by
  refine compiles_parsed hscoped MATCH_TYPE_DSCP parse_dscp raw_u8
    (fun value => query.dscp.any fun got => decide (got = value)) _ (fun val value hvalue => ?_)
    (fun value => ⟨rfl, .Dscp value, rfl, fun _ _ => rfl⟩) hvalues hdscps
  rw [hvalue]
  rfl

variable {key : String}

theorem compiles_domains {engines : TextEngines} (hdoc : engines.Documented)
    {set : SharedDomainSet} (hset : shared_domain_set engines key values = .ok set) :
    Compiles query plan { plan with
        domain_sets := plan.domain_sets ++ [⟨plan.match_sets.length, set⟩]
        match_sets := plan.match_sets
          ++ [match_set (List.replicate 16 0) not MATCH_TYPE_DOMAIN_SET outbound] }
      not outbound (values.any fun val => domain_holds engines key val query.domain) := by
  refine ⟨_, cons_ne_nil _ _, ?_, emits_domain hscoped set⟩
  obtain ⟨key', hkey, hset⟩ := bind_ok hset
  have hkey := map_err_ok hkey
  have hholds : ∀ val, domain_holds engines key val query.domain
      = (!query.domain.isEmpty && pattern_matches engines key' query.domain val) := by
    intro val
    rw [domain_holds, hkey]
  simp only [any_cons, any_nil, Bool.or_false, id,
    SharedDomainSet.matches_eq hdoc (map_err_ok hset) query.domain, hholds]
  -- a query without a domain matches no pattern
  cases query.domain.isEmpty <;> simp

omit hscoped in
theorem parse_ip_prefix_group_ok {prefixes : List IpPrefix}
    (h : parse_ip_prefix_group key values = .ok prefixes) :
    values.mapM (fun value => parse_ip_prefix value) = .ok prefixes := by
  unfold parse_ip_prefix_group at h
  split at h
  · exact h
  · cases h

/-- **One key of one function.** One case for each arm of the source. -/
theorem add_function_compiles {engines : TextEngines} (hdoc : engines.Documented)
    {function : Function} (hvalues : values ≠ []) {outbound : OutboundSpec} {later : ResidentRoutingPlan}
    (h : add_function_match_sets engines plan function key values outbound = .ok later) :
    Compiles query plan later function.not outbound
      (values.any fun val => param_holds engines query function.name key val) := by
  unfold add_function_match_sets at h
  -- the arms in the order of the source; each closes by the lemma of its shape
  split at h
  · rename_i hname
    split at h
    · obtain ⟨set, hset, rfl⟩ := bind_pure_ok h
      simp only [hname, param_holds_domain]
      exact compiles_domains hscoped hdoc hset
    · cases h
  · rename_i hname
    obtain ⟨prefixes, hprefixes, rfl⟩ := bind_pure_ok h
    simp only [hname, param_holds_ip]
    exact compiles_lpm hscoped MATCH_TYPE_IP_SET
      (fun _ => ⟨_, rfl, fun _ _ => rfl⟩) (parse_ip_prefix_group_ok hprefixes)
  · rename_i hname
    obtain ⟨prefixes, hprefixes, rfl⟩ := bind_pure_ok h
    simp only [hname, param_holds_sip]
    exact compiles_lpm hscoped MATCH_TYPE_SOURCE_IP_SET
      (fun _ => ⟨_, rfl, fun _ _ => rfl⟩) (parse_ip_prefix_group_ok hprefixes)
  · rename_i hname
    obtain ⟨prefixes, hprefixes, rfl⟩ := bind_pure_ok h
    simp only [hname, param_holds_mac]
    exact compiles_lpm hscoped MATCH_TYPE_MAC
      (fun _ => ⟨_, rfl, fun _ _ => rfl⟩) hprefixes
  · rename_i hname
    obtain ⟨ranges, hranges, rfl⟩ := bind_pure_ok h
    simp only [hname, param_holds_port]
    exact compiles_ports hscoped MATCH_TYPE_PORT
      (fun _ => ⟨_, rfl, fun _ _ => rfl⟩) hvalues hranges
  · rename_i hname
    obtain ⟨ranges, hranges, rfl⟩ := bind_pure_ok h
    simp only [hname, param_holds_sport]
    exact compiles_ports hscoped MATCH_TYPE_SOURCE_PORT
      (fun _ => ⟨_, rfl, fun _ _ => rfl⟩) hvalues hranges
  · rename_i hname
    obtain ⟨value, hvalue, rfl⟩ := bind_pure_ok h
    rw [hname]
    have hcompiles := @compiles_flags query plan hscoped MATCH_TYPE_L4_PROTO function.not
      outbound (fun v => query.l4proto.any fun got => got &&& v != 0)
      (fun _ => ⟨_, rfl, fun _ _ => rfl⟩) value
    -- one test of the collected flags is the disjunction of the single tests
    have hany : (query.l4proto.any fun got => got &&& value != 0)
        = values.any fun val =>
          (l4_proto_flag val).any fun bit => query.l4proto.any fun got => got &&& bit != 0 := by
      cases query.l4proto with
      | none => simp
      | some got => exact parse_flags_ok hvalue got
    simp only [param_holds_l4proto, ← hany]
    exact hcompiles
  · rename_i hname
    obtain ⟨value, hvalue, rfl⟩ := bind_pure_ok h
    simp only [hname, param_holds_ipversion]
    have hcompiles := @compiles_flags query plan hscoped MATCH_TYPE_IP_VERSION function.not
      outbound (fun v => query.effective_ip_version &&& v != 0)
      (fun _ => ⟨_, rfl, fun _ _ => rfl⟩) value
    rwa [parse_flags_ok hvalue query.effective_ip_version] at hcompiles
  · rename_i hname
    cases h
    simp only [hname, param_holds_pname]
    exact compiles_pnames hscoped hvalues
  · rename_i hname
    obtain ⟨dscps, hdscps, rfl⟩ := bind_pure_ok h
    simp only [hname, param_holds_dscp]
    exact compiles_dscps hscoped hvalues hdscps
  · cases h

end

end DaeNext.RoutingCompileFunction
