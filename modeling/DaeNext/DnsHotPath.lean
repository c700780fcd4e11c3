/-
Answering from the cache (`dae-dns/src/hot_path.rs`, `hot_path/negative.rs`, `reuse.rs`,
`message/packet_answer_view.rs`): the plan under which a response is cached, and the replay of
a cached response for a later request.

A packet is rewritten in place: its id, question and two flags become those of the request, and
its TTLs are capped by the time the entry has left. Times are integers; the sums of a time and
a TTL are those of `i64` as long as they do not overflow.
-/
import DaeNext.DnsCacheStore
import DaeNext.DnsRecords
import Mathlib.Algebra.Ring.Int.Defs

set_option autoImplicit false

namespace DaeNext.Dns

open Net (IpAddr)
open Patch (copy_at)

/-! ## Answers of a packet -/

structure DnsPacketNameView where
  packet : List UInt8
  offset : Nat

inductive DnsPacketAnswerView where
  | A (name : DnsPacketNameView) (ttl : UInt32) (addr : BitVec 32)
  | Aaaa (name : DnsPacketNameView) (ttl : UInt32) (addr : BitVec 128)
  | Cname (name : DnsPacketNameView) (ttl : UInt32) (target : DnsPacketNameView)
  | Other (name : DnsPacketNameView) (qtype : UInt16) (ttl : UInt32) (rdata : List UInt8)

namespace DnsPacketNameView

def labels (self : DnsPacketNameView) : List (Except DnsError (List UInt8)) :=
  (NameLabels.new self.packet self.offset self.packet.length true).items.1

def to_canonical_string (self : DnsPacketNameView) : Except DnsError String := do
  let out ← self.labels.foldlM
    (fun out item => do
      let label ← item
      pure (append_label (if out.isEmpty then out else out.push '.') label)) ""
  pure (out.push '.')

/-- The loop of `canonical_eq_ignore_ascii_case` over the labels not yet seen. -/
def labels_eq (trimmed_is_empty : Bool) (saw_candidate_label : Bool) :
    List (Except DnsError (List UInt8)) → List String → Except DnsError Bool
  | [], candidate_labels =>
    .ok (candidate_labels.isEmpty && (saw_candidate_label || trimmed_is_empty))
  | .error err :: _, _ => .error err
  | .ok _ :: _, [] => .ok false
  | .ok label :: labels, candidate_label :: candidate_labels =>
    if Text.eq_ignore_ascii_case label (Text.as_bytes candidate_label) then
      labels_eq trimmed_is_empty true labels candidate_labels
    else .ok false

def canonical_eq_ignore_ascii_case (self : DnsPacketNameView) (candidate : String) :
    Except DnsError Bool :=
  if Text.contains_char '\\' candidate || Text.trim candidate == "." then do
    let canonical ← self.to_canonical_string
    pure (canonical == canonical_name_lowercase candidate)
  else
    let trimmed := Text.trim_end_matches '.' (Text.trim candidate)
    labels_eq trimmed.isEmpty false self.labels (Text.split '.' trimmed)

end DnsPacketNameView

namespace DnsPacketAnswerView

def ttl : DnsPacketAnswerView → UInt32
  | .A _ ttl _ | .Aaaa _ ttl _ | .Cname _ ttl _ | .Other _ _ ttl _ => ttl

def ip : DnsPacketAnswerView → Option IpAddr
  | .A _ _ addr => some (.V4 addr)
  | .Aaaa _ _ addr => some (.V6 addr)
  | _ => none

def qtype : DnsPacketAnswerView → UInt16
  | .A .. => 1
  | .Aaaa .. => 28
  | .Cname .. => 5
  | .Other _ qtype _ _ => qtype

def name : DnsPacketAnswerView → DnsPacketNameView
  | .A name _ _ | .Aaaa name _ _ | .Cname name _ _ | .Other name _ _ _ => name

def cname_target : DnsPacketAnswerView → Option DnsPacketNameView
  | .Cname _ _ target => some target
  | _ => none

end DnsPacketAnswerView

/-- One turn of `DnsPacketAnswerIter::next`, with the offset after the answer. -/
def answer_at (packet : List UInt8) (offset : Nat) : Except DnsError (DnsPacketAnswerView × Nat) := do
  let name_end ← scan_dns_name packet offset packet.length true
  let qtype ← read_u16 packet name_end
  let qclass ← read_u16 packet (name_end + 2)
  let ttl ← read_u32 packet (name_end + 4)
  let rdlen := (← read_u16 packet (name_end + 8)).toNat
  let rdata_offset := name_end + 10
  let rdata_end := rdata_offset + rdlen
  if packet.length < rdata_end then throw .UnexpectedEof
  let name : DnsPacketNameView := ⟨packet, offset⟩
  let answer ←
    if qtype = 1 ∧ qclass = 1 ∧ rdlen = 4 then
      pure (.A name ttl (BitVec.ofNat 32 (Net.from_be_bytes (slice packet rdata_offset rdata_end))))
    else if qtype = 28 ∧ qclass = 1 ∧ rdlen = 16 then
      pure (.Aaaa name ttl (Net.ipv6_from_octets (slice packet rdata_offset rdata_end)))
    else if qtype = 5 ∧ qclass = 1 then
      match scan_dns_name packet rdata_offset rdata_end true with
      | .ok consumed =>
        if consumed ≤ rdata_end then pure (.Cname name ttl ⟨packet, rdata_offset⟩)
        else throw .InvalidDnsName
      | .error _ => throw .InvalidDnsName
    else pure (.Other name qtype ttl (slice packet rdata_offset rdata_end))
  pure (answer, rdata_end)

/-- All answers of a view; the first one that cannot be read ends the loop over them. -/
def DnsPacketView.answers (view : DnsPacketView) : Except DnsError (List DnsPacketAnswerView) := do
  let (answers, _) ← parse_items (answer_at view.packet) view.answer_count.toNat view.answer_offset
  pure answers

/-! ## Negative answers -/

/-- The inner loop of `terminal_name`: the target of the first `CNAME` of `name` among the
answers left. -/
def cname_of (packet : List UInt8) (name : String) : Nat → Nat → Except DnsError (Option String)
  | 0, _ => .ok none
  | remaining + 1, offset => do
    let (answer, next) ← answer_at packet offset
    match answer.cname_target with
    | none => cname_of packet name remaining next
    | some target =>
      if ← answer.name.canonical_eq_ignore_ascii_case name then
        return some (← target.to_canonical_string)
      else cname_of packet name remaining next

/-- Follow at most `hops` more aliases from `name`; a name seen before ends the search. -/
def terminal_name_from (response : DnsPacketView) : Nat → List String → String →
    Except DnsError (Option String)
  | 0, _, _ => .ok none
  | hops + 1, seen, name =>
    if name ∈ seen then .ok none
    else do
      match ← cname_of response.packet name response.answer_count.toNat response.answer_offset with
      | some target => terminal_name_from response hops (name :: seen) target
      | none => pure (some name)

def terminal_name (response : DnsPacketView) (qname : String) : Except DnsError (Option String) :=
  terminal_name_from response 16 [] qname

/-- `terminal` is `owner` or a name below it. -/
def in_zone (terminal owner : String) : Bool :=
  owner == "." || terminal == owner ||
    (owner.toList.isSuffixOf terminal.toList &&
      (terminal.toList.take (terminal.length - owner.length)).getLast? == some '.')

structure SectionState where
  offset : Nat
  negative_ttl : Option UInt32 := none
  extended_error : Bool := false

def lesser (a b : UInt32) : UInt32 := if a ≤ b then a else b

/-- What the authority record `owner_offset` says about negative answers for `terminal`. -/
def soa_ttl (packet : List UInt8) (terminal : String) (owner_offset start stop : Nat)
    (ttl : UInt32) (old : Option UInt32) : Except DnsError (Option UInt32) := do
  let owner ← (NameLabels.new packet owner_offset packet.length true).text
  let mname_end ← scan_dns_name packet start stop true
  let rname_end ← scan_dns_name packet mname_end stop true
  if rname_end + 20 ≠ stop then throw .InvalidDnsName
  if in_zone terminal owner then do
    let value := lesser ttl (← read_u32 packet (rname_end + 16))
    pure (some (old.elim value (lesser · value)))
  else pure old

/-- One record of a section: 0 are the answers, 1 the authority and 2 the additional ones. -/
def section_record (packet : List UInt8) (terminal : String) (qclass : UInt16) (s : SectionState)
    (part : Nat) : Except DnsError SectionState := do
  let fixed ← scan_dns_name packet s.offset packet.length true
  let kind ← read_u16 packet fixed
  let cls ← read_u16 packet (fixed + 2)
  let ttl ← read_u32 packet (fixed + 4)
  let start := fixed + 10
  let stop := start + (← read_u16 packet (fixed + 8)).toNat
  if packet.length < stop then throw .UnexpectedEof
  let extended_error := s.extended_error || (part == 2 && kind == 41 && ttl >>> 24 != 0)
  let negative_ttl ←
    if part = 1 ∧ kind = 6 ∧ cls = qclass then
      soa_ttl packet terminal s.offset start stop ttl s.negative_ttl
    else pure s.negative_ttl
  pure { offset := stop, negative_ttl := negative_ttl, extended_error := extended_error }

def section_cache_metadata (response : DnsPacketView) (terminal : String) :
    Except DnsError (Option UInt32 × Bool) := do
  let packet := response.packet
  let authorities := (← read_u16 packet 8).toNat
  let additionals := (← read_u16 packet 10).toNat
  match response.questions.next with
  | none => throw .InvalidDnsName
  | some (question, _) =>
    let parts := List.replicate response.answer_count.toNat 0 ++ List.replicate authorities 1 ++
      List.replicate additionals 2
    let s ← parts.foldlM (section_record packet terminal question.qclass)
      { offset := response.answer_offset }
    if s.offset ≠ packet.length then throw .InvalidDnsName
    pure (s.negative_ttl, s.extended_error)

/-! ## Time to live -/

/-- `to_be_bytes` of a TTL. -/
def ttl_bytes (ttl : UInt32) : List UInt8 := Net.be_bytes 4 ttl.toBitVec

def cap_ttls (limit : UInt32) : Nat → Nat → List UInt8 → Except DnsError (List UInt8)
  | 0, _, packet => .ok packet
  | count + 1, offset, packet => do
    let fixed ← scan_dns_name packet offset packet.length true
    let kind ← read_u16 packet fixed
    let stop := fixed + 10 + (← read_u16 packet (fixed + 8)).toNat
    if packet.length < stop then throw .UnexpectedEof
    if kind ≠ 41 then do
      let ttl ← read_u32 packet (fixed + 4)
      cap_ttls limit count stop (copy_at packet (fixed + 4) (ttl_bytes (lesser ttl limit)))
    else cap_ttls limit count stop packet

/-- The packet with all TTLs capped; `OPT` has none. -/
def cap_dns_response_ttls (packet : List UInt8) (limit : UInt32) : Except DnsError (List UInt8) := do
  let view ← DnsPacketView.parse packet
  let authorities := (← read_u16 packet 8).toNat
  let additionals := (← read_u16 packet 10).toNat
  cap_ttls limit (view.answer_count.toNat + authorities + additionals) view.answer_offset packet

def zero_answer_ttls : Nat → Nat → List UInt8 → Except DnsError (List UInt8)
  | 0, _, packet => .ok packet
  | count + 1, offset, packet => do
    let name_end ← scan_dns_name packet offset packet.length true
    if packet.length < name_end + 10 ∨ packet.length < name_end + 8 then throw .UnexpectedEof
    let packet := copy_at packet (name_end + 4) (ttl_bytes 0)
    let next := name_end + 10 + (← read_u16 packet (name_end + 8)).toNat
    if packet.length < next then throw .UnexpectedEof
    zero_answer_ttls count next packet

def normalized_packed_response (packet : List UInt8) (view : DnsPacketView)
    (zero_answer_ttl : Bool) : Except DnsError (List UInt8) :=
  if packet.length < 2 then .error .PacketTooShort
  else
    let out := copy_at packet 0 [0, 0]
    if zero_answer_ttl then zero_answer_ttls view.answer_count.toNat view.answer_offset out
    else .ok out

/-! ## The plan -/

structure DnsResponseCachePlan where
  key : DnsCacheKey
  entry : DnsCacheEntry
  min_ttl : UInt32
  answer_count : Nat
  ip_count : Nat
  client_ttl_zeroed : Bool
  deriving DecidableEq

def effective_deadline_from_ttl (now_unix upstream_ttl : Int) (fixed_domain_ttl : Option Int) :
    Int × Int :=
  let original := now_unix + upstream_ttl
  ((fixed_domain_ttl.map (now_unix + ·)).getD original, original)

def build_negative_response_cache_plan (now_unix : Int) (response_packet : List UInt8)
    (response : DnsPacketView) (qname : String) (min_ttl : UInt32) (fixed_domain_ttl : Option Int) :
    Except DnsError (Option DnsResponseCachePlan) := do
  let packed_response ← normalized_packed_response response_packet response false
  let packed_response ← cap_dns_response_ttls packed_response min_ttl
  let (deadline_unix, original_deadline_unix) :=
    effective_deadline_from_ttl now_unix min_ttl.toNat fixed_domain_ttl
  match response.questions.next with
  | none => throw .InvalidDnsName
  | some (question, _) =>
    let key := DnsCacheKey.new qname question.qtype question.qclass
    pure (some {
      key := key
      entry := {
        route_owner_key := key.to_string
        deadline_unix := deadline_unix
        original_deadline_unix := original_deadline_unix
        packed_response := packed_response }
      min_ttl := min_ttl
      answer_count := response.answer_count.toNat
      ip_count := 0
      client_ttl_zeroed := false })

def min_answer_ttl (answers : List DnsPacketAnswerView) : Option UInt32 :=
  answers.foldl (fun least answer => some (least.elim answer.ttl (lesser · answer.ttl))) none

/-- `IpAddr::is_unspecified`. -/
def is_unspecified : IpAddr → Bool
  | .V4 addr => addr == 0
  | .V6 addr => addr == 0

/-- The plan of a response that answers its question, from its addresses and least TTL. -/
def build_positive_response_cache_plan (now_unix : Int) (response_packet : List UInt8)
    (response : DnsPacketView) (question : DnsPacketQuestionView) (qname : String)
    (answers : List DnsPacketAnswerView) (fixed_domain_ttl : Option Int) :
    Except DnsError (Option DnsResponseCachePlan) :=
  match min_answer_ttl answers with
  | none => .ok none
  | some min_ttl => do
    let client_ttl_zeroed := question.qtype == 1 || question.qtype == 28
    let packed_response ← normalized_packed_response response_packet response client_ttl_zeroed
    let (deadline_unix, original_deadline_unix) :=
      effective_deadline_from_ttl now_unix min_ttl.toNat fixed_domain_ttl
    let key := DnsCacheKey.new qname question.qtype question.qclass
    let addrs := answers.filterMap DnsPacketAnswerView.ip
    let ips := addrs.filter fun ip => !is_unspecified ip
    pure (some {
      key := key
      entry := {
        route_owner_key := key.to_string
        ips := ips
        has_any_ip := !addrs.isEmpty
        deadline_unix := deadline_unix
        original_deadline_unix := original_deadline_unix
        packed_response := packed_response }
      min_ttl := min_ttl
      answer_count := answers.length
      ip_count := ips.length
      client_ttl_zeroed := client_ttl_zeroed })

/-- The name a negative answer is about. -/
def terminal_of (response : DnsPacketView) (qname : String) (is_negative : Bool) :
    Except DnsError (Option String) :=
  if is_negative then terminal_name response qname else .ok (some qname)

/-- The plan of a response whose flags admit caching, for its one question. -/
def build_plan_for_question (now_unix : Int) (response_packet : List UInt8) (flags : UInt16)
    (response : DnsPacketView) (question : DnsPacketQuestionView) (fixed_domain_ttl : Option Int) :
    Except DnsError (Option DnsResponseCachePlan) := do
  let qname ← canonical_wire_name question.qname_wire
  if (IpAddr.from_str (Text.trim_end_matches '.' qname)).isOk then return none
  let answers ← response.answers
  let terminal_answer := answers.any fun answer => answer.qtype == question.qtype
  let is_negative := flags &&& 0x000f == 3 || !terminal_answer
  match ← terminal_of response qname is_negative with
  | none => return none
  | some terminal =>
    let (negative_ttl, extended_error) ← section_cache_metadata response terminal
    if extended_error then return none
    if is_negative then
      if answers.any fun answer => answer.ip.isSome then return none
      match negative_ttl with
      | none => return none
      | some ttl =>
        let ttl := (min_answer_ttl answers).elim ttl (lesser · ttl)
        let fixed := fixed_domain_ttl.map fun fixed => min (max fixed 0) (ttl.toNat : Int)
        if ttl = 0 ∨ fixed = some 0 then return none
        build_negative_response_cache_plan now_unix response_packet response qname ttl fixed
    else
      build_positive_response_cache_plan now_unix response_packet response question qname answers
        fixed_domain_ttl

def build_response_cache_plan_from_packet (now_unix : Int) (response_packet : List UInt8)
    (fixed_domain_ttl : Option Int) : Except DnsError (Option DnsResponseCachePlan) := do
  let flags ← read_u16 response_packet 2
  if flags &&& 0x8000 = 0 ∨ flags &&& 0x0200 ≠ 0 ∨ ¬(flags &&& 0x000f = 0 ∨ flags &&& 0x000f = 3) then
    return none
  let response ← DnsPacketView.parse response_packet
  if response.question_count.toNat ≠ 1 then return none
  match response.questions.next with
  | none => return none
  | some (question, _) =>
    build_plan_for_question now_unix response_packet flags response question fixed_domain_ttl

/-! ## The replay -/

structure DnsPacketCacheHit where
  request_id : UInt16
  response_len : Nat
  deriving DecidableEq, Repr

/-- `restore_packed_response_request_id_into`: a response too short for an id leaves `out`. -/
def fill_packed_response_into (packed : List UInt8) (request_id : UInt16) (out : List UInt8) :
    List UInt8 :=
  if packed.length < 2 then out
  else copy_at packed 0 [UInt8.ofNat (request_id >>> 8).toNat, UInt8.ofNat request_id.toNat]

def u16_bytes (value : UInt16) : List UInt8 := Net.be_bytes 2 value.toBitVec

/-- `restore_dns_response_for_request`: question, id and the flags `RD` and `CD` of the
request. -/
def restore_dns_response_for_request (request : DnsPacketView) (response : List UInt8) :
    Except DnsError (List UInt8) := do
  let view ← DnsPacketView.parse response
  match validate_dns_packet_response_for_request_fast request (some view) false with
  | .error _ => throw .InvalidDnsName
  | .ok () =>
    if request.answer_offset ≠ view.answer_offset then throw .InvalidDnsName
    let stop := request.answer_offset
    let response := copy_at response 12 (slice request.packet 12 stop)
    let response := copy_at response 0 (u16_bytes request.id)
    let flags ← read_u16 response 2
    let request_flags ← read_u16 request.packet 2
    pure (copy_at response 2 (u16_bytes ((flags &&& ~~~0x0110) ||| (request_flags &&& 0x0110))))

/-- `saturating_sub` and `clamp(0, u32::MAX)`, as a TTL. -/
def remaining_ttl (deadline now_unix : Int) : UInt32 :=
  UInt32.ofNat (min (max (deadline - now_unix) 0) (2 ^ 32 - 1)).toNat

/-- A hit comes with the response in `out`; an error ends the replay. -/
def restore_cached_response_for_packet_question (hasher : HashBuilder) (store : DnsCacheStore)
    (now_unix : Int) (request_packet : List UInt8) (ignore_fixed_ttl : Bool) (out : List UInt8) :
    Except DnsError (Option (DnsPacketCacheHit × List UInt8) × DnsCacheStore) := do
  let request ← DnsPacketView.parse request_packet
  if request.question_count.toNat ≠ 1 then return (none, store)
  match request.questions.next with
  | none => return (none, store)
  | some (question, _) =>
    let (found, store) ← store.lookup_packet_question hasher now_unix question ignore_fixed_ttl
    match found with
    | none => return (none, store)
    | some entry =>
      let out := fill_packed_response_into entry.packed_response request.id out
      match restore_dns_response_for_request request out with
      | .error _ => return (none, store)
      | .ok out =>
        let remaining := remaining_ttl (entry.lookup_deadline ignore_fixed_ttl) now_unix
        let out ← cap_dns_response_ttls out remaining
        if out.isEmpty then return (none, store)
        return (some ({ request_id := request.id, response_len := out.length }, out), store)

end DaeNext.Dns
