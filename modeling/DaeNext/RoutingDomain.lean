/-
Domain sets of the userspace matcher: `dae-routing/src/domain.rs`.

A set of fewer than 32 patterns is tried pattern by pattern. A larger one is
indexed by kind: a hash set for `full`, an Aho-Corasick automaton for `keyword`,
two hash sets walked label by label for `suffix`, one combined automaton for
`regex`. `SharedDomainSet.matches_eq` says that, indexed or not, a set matches a
domain exactly when one of its patterns does.

The two automata are third-party crates. They enter as `TextEngines`, and what
the code relies on is `TextEngines.Documented`: a set matches when a member does.

The matcher collects the sets into a bitmap, one bit a set. The compiler gives a
set the position of its match set as bit, and `DomainMatcher.fill_domain_bitmap_spec`
reads that bit back.
-/
import DaeNext.LibBitmap
import DaeNext.LibUtf8
import DaeNext.RoutingPrefix

set_option autoImplicit false

namespace DaeNext.RoutingDomain

open Fallible Text
open RoutingPrefix (RoutingError)
open List hiding set

/-! ## Third-party automata -/

/-- The constructors of `regex::Regex`, `regex::RegexSet` and
`aho_corasick::AhoCorasick`, each giving its `is_match` or failing. -/
structure TextEngines where
  regex_new : String → Option (String → Bool)
  regex_set_new : List String → Option (String → Bool)
  aho_corasick_new : List String → Except String (String → Bool)

/-- What their documentation promises. A regex set matches when one of the regexes
it was made of does; an Aho-Corasick automaton when one of its patterns occurs. -/
structure TextEngines.Documented (engines : TextEngines) : Prop where
  regex_set_is_match : ∀ patterns is_match, engines.regex_set_new patterns = some is_match →
    (∀ p ∈ patterns, (engines.regex_new p).isSome) →
    ∀ text, is_match text = patterns.any fun p => (engines.regex_new p).any (· text)
  aho_corasick_is_match : ∀ patterns is_match, engines.aho_corasick_new patterns = .ok is_match →
    ∀ text, is_match text = patterns.any fun p => Text.contains p text

/-! ## Keys and normal forms -/

inductive DomainKey where
  | Full
  | Keyword
  | Suffix
  | Regex
  deriving DecidableEq

def DomainKey.try_from : String → Except RoutingError DomainKey
  | "full" => .ok .Full
  | "keyword" => .ok .Keyword
  | "suffix" => .ok .Suffix
  | "regex" => .ok .Regex
  | value => .error (.InvalidDomainKey value)

def normalize_pattern (key : DomainKey) (pattern : String) : String :=
  match key with
  | .Regex => pattern
  | _ => Text.to_ascii_lowercase (Text.trim_end_matches '.' pattern)

def normalize_patterns (patterns : List String) (key : DomainKey) : List String :=
  patterns.map (normalize_pattern key)

def normalize_query_domain (domain : String) : String :=
  let trimmed := Text.trim_end_matches '.' domain
  -- the source keeps a borrow where nothing has to change; the text is the same
  if trimmed.toList.any Char.isUpper then Text.to_ascii_lowercase trimmed else trimmed

/-! ## Matching one pattern -/

/-- `str::eq_ignore_ascii_case`. -/
def eq_ignore_ascii_case (a b : String) : Bool :=
  Text.to_ascii_lowercase a = Text.to_ascii_lowercase b

/-- `has_label_suffix`: the text ends in the suffix, with a dot before it. -/
def has_label_suffix (domain suffix : List Char) : Bool :=
  suffix.length < domain.length && suffix.isSuffixOf domain
    && domain[domain.length - suffix.length - 1]? = some '.'

/-- The same test on bytes, as the source makes it. -/
def has_label_suffix_bytes (domain suffix : List UInt8) : Bool :=
  suffix.length < domain.length && suffix.isSuffixOf domain
    && domain[domain.length - suffix.length - 1]? = some 0x2e

/-- `suffix_matches`: a leading dot asks for a proper subdomain. -/
def suffix_matches (domain pattern : List Char) : Bool :=
  match pattern with
  | '.' :: stripped => has_label_suffix domain stripped
  | _ => domain = pattern || has_label_suffix domain pattern

/-- One pattern against one domain, both in normal form: the body of each `any` in
`linear_domain_set_matches`. -/
def linear_pattern_matches (engines : TextEngines) (key : DomainKey) (domain pattern : String) :
    Bool :=
  match key with
  | .Full => eq_ignore_ascii_case domain (Text.trim_end_matches '.' pattern)
  | .Keyword => Text.contains pattern domain
  | .Suffix => suffix_matches domain.toList pattern.toList
  | .Regex => (engines.regex_new pattern).any (· domain)

/-! ## The suffix index -/

structure SuffixDomainSetIndex where
  exact_or_subdomain : List String
  subdomain_only : List String

/-- `SuffixDomainSetIndex::new`. The hash sets are only asked for membership. -/
def SuffixDomainSetIndex.new (patterns : List String) : SuffixDomainSetIndex where
  exact_or_subdomain := patterns.filter (·.toList.head? != some '.')
  subdomain_only := patterns.filterMap fun p =>
    match p.toList with
    | '.' :: stripped => some (String.ofList stripped)
    | _ => none

/-- The candidates after the first one: what follows each dot. -/
def anyParent (check : List Char → Bool) : List Char → Bool
  | [] => false
  | c :: cs => (c = '.' && check cs) || anyParent check cs

/-- `SuffixDomainSetIndex::matches`: the domain itself, then every parent of it. -/
def SuffixDomainSetIndex.matches (self : SuffixDomainSetIndex) (domain : List Char) : Bool :=
  self.exact_or_subdomain.contains (String.ofList domain)
    || anyParent (fun candidate =>
      self.exact_or_subdomain.contains (String.ofList candidate)
        || self.subdomain_only.contains (String.ofList candidate)) domain

/-! ## Sets -/

def DOMAIN_SET_INDEX_MIN_PATTERNS : Nat := 32

inductive SharedDomainSetIndex where
  | Full (set : List String)
  | Keyword (is_match : String → Bool)
  | Suffix (index : SuffixDomainSetIndex)
  | Regex (is_match : String → Bool)

def regex_set (engines : TextEngines) (patterns : List String) :
    Except RoutingError (String → Bool) :=
  match engines.regex_set_new patterns with
  | some is_match => .ok is_match
  | none =>
    -- the error names the first pattern that does not compile alone
    match patterns.find? (fun p => (engines.regex_new p).isNone) with
    | some pattern => .error (.InvalidRegex pattern)
    | none => .error (.InvalidFixture "invalid regex set")

def SharedDomainSetIndex.new (engines : TextEngines) (key : DomainKey) (patterns : List String) :
    Except RoutingError (Option SharedDomainSetIndex) :=
  if patterns.length < DOMAIN_SET_INDEX_MIN_PATTERNS then .ok none
  else
    match key with
    | .Full => .ok (some (.Full (patterns.map fun p =>
      Text.to_ascii_lowercase (Text.trim_end_matches '.' p))))
    | .Keyword =>
      -- an empty keyword matches everything, which the automaton is not asked to do
      if patterns.any String.isEmpty then .ok none
      else
        match engines.aho_corasick_new patterns with
        | .ok is_match => .ok (some (.Keyword is_match))
        | .error err => .error (.InvalidFixture s!"invalid keyword domain set index: {err}")
    | .Suffix => .ok (some (.Suffix (.new patterns)))
    | .Regex =>
      match regex_set engines patterns with
      | .ok is_match => .ok (some (.Regex is_match))
      | .error err => .error err

def SharedDomainSetIndex.matches (self : SharedDomainSetIndex) (domain : String) : Bool :=
  match self with
  | .Full set => set.contains domain
  | .Keyword is_match => is_match domain
  | .Suffix index => index.matches domain.toList
  | .Regex is_match => is_match domain

def regex_vec (engines : TextEngines) (patterns : List String) :
    Except RoutingError (List (String → Bool)) :=
  patterns.mapM fun pattern =>
    match engines.regex_new pattern with
    | some is_match => .ok is_match
    | none => .error (.InvalidRegex pattern)

structure SharedDomainSet where
  key : DomainKey
  patterns : List String
  regex : List (String → Bool)
  index : Option SharedDomainSetIndex

def SharedDomainSet.from_vec (engines : TextEngines) (raw_patterns : List String)
    (key : DomainKey) : Except RoutingError SharedDomainSet := do
  let patterns := normalize_patterns raw_patterns key
  let regex ← (if key = .Regex then regex_vec engines patterns else .ok [])
  let index ← SharedDomainSetIndex.new engines key patterns
  return { key, patterns, regex, index }

def linear_domain_set_matches (key : DomainKey) (domain : String) (patterns : List String)
    (regex : List (String → Bool)) : Bool :=
  match key with
  | .Full => patterns.any fun p => eq_ignore_ascii_case domain (Text.trim_end_matches '.' p)
  | .Keyword => patterns.any fun p => Text.contains p domain
  | .Suffix => patterns.any fun p => suffix_matches domain.toList p.toList
  | .Regex => regex.any fun is_match => is_match domain

def SharedDomainSet.matches (self : SharedDomainSet) (domain : String) : Bool :=
  let domain := normalize_query_domain domain
  match self.index with
  | some index => index.matches domain
  | none => linear_domain_set_matches self.key domain self.patterns self.regex

/-! ## The bitmap of all sets -/

structure DomainSet where
  bit_index : Nat
  data : SharedDomainSet

structure DomainMatcher where
  bit_length : Nat
  sets : List DomainSet

def DomainMatcher.bitmap_words (self : DomainMatcher) : Nat := (self.bit_length + 31) / 32

def fill_bit (bit_length : Nat) (domain : String) (bitmap : List (BitVec 32)) (set : DomainSet) :
    List (BitVec 32) :=
  if set.bit_index ≥ bit_length ∨ Bitmap.has bitmap set.bit_index then bitmap
  else if set.data.matches domain then Bitmap.set bitmap set.bit_index
  else bitmap

def DomainMatcher.fill_bitmap (self : DomainMatcher) (domain : String)
    (bitmap : List (BitVec 32)) : List (BitVec 32) :=
  let domain := normalize_query_domain domain
  self.sets.foldl (fill_bit self.bit_length domain) bitmap

/-- `DomainMatcher::fill_domain_bitmap`: the caller's buffer, cleared and filled, or
an error when it is too short. -/
def DomainMatcher.fill_domain_bitmap (self : DomainMatcher) (domain : String)
    (bitmap : List (BitVec 32)) : Except RoutingError (List (BitVec 32)) :=
  let words := self.bitmap_words
  if bitmap.length < words then
    .error (.InvalidFixture s!"domain bitmap buffer too short: got {bitmap.length}, want {words}")
  else .ok (self.fill_bitmap domain (List.replicate words 0#32))

/-! ## Normal forms -/

theorem normalize_query_domain_eq (domain : String) :
    normalize_query_domain domain = to_ascii_lowercase (trim_end_matches '.' domain) := by
  unfold normalize_query_domain
  simp only
  split
  · rfl
  · rename_i h
    rw [to_ascii_lowercase_of_no_upper (by simpa using h)]

theorem normalize_query_domain_idem (domain : String) :
    normalize_query_domain (normalize_query_domain domain) = normalize_query_domain domain := by
  simp only [normalize_query_domain_eq, trim_lowercase_trim, to_ascii_lowercase_idem]

theorem lowercase_normalize_query_domain (domain : String) :
    to_ascii_lowercase (normalize_query_domain domain) = normalize_query_domain domain := by
  rw [normalize_query_domain_eq, to_ascii_lowercase_idem]

/-! ## The label walk -/

theorem preceded_suffix_iff {α : Type} [DecidableEq α] (domain suffix : List α) (dot : α) :
    (suffix.length < domain.length && suffix.isSuffixOf domain
        && domain[domain.length - suffix.length - 1]? = some dot) = true
      ↔ ∃ front, domain = front ++ dot :: suffix := by
  simp only [Bool.and_eq_true, decide_eq_true_eq, isSuffixOf_iff_suffix]
  constructor
  · rintro ⟨⟨hlen, front, rfl⟩, hdot⟩
    -- the front is not empty, and its last character is the one before the suffix
    rcases eq_nil_or_concat front with rfl | ⟨front, c, rfl⟩
    · simp at hlen
    · rw [concat_eq_append] at hdot
      have hc : c = dot := by
        have hidx : (front ++ [c] ++ suffix).length - suffix.length - 1 = front.length := by
          simp only [length_append, length_cons, length_nil]
          omega
        rw [hidx] at hdot
        simpa using hdot
      exact ⟨front, by simp [hc]⟩
  · rintro ⟨front, rfl⟩
    refine ⟨⟨?_, front ++ [dot], by simp⟩, ?_⟩
    · simp only [length_append, length_cons]
      omega
    have hidx : (front ++ dot :: suffix).length - suffix.length - 1 = front.length := by
      simp only [length_append, length_cons]
      omega
    rw [hidx]
    simp

theorem has_label_suffix_iff (domain suffix : List Char) :
    has_label_suffix domain suffix = true ↔ ∃ front, domain = front ++ '.' :: suffix :=
  preceded_suffix_iff domain suffix '.'

theorem exists_dot_of_bytes {domain suffix : List Char} {front : List UInt8}
    (h : domain.flatMap String.utf8EncodeChar = front ++ 0x2e :: suffix.flatMap String.utf8EncodeChar) :
    ∃ front, domain = front ++ '.' :: suffix := by
  induction domain generalizing front with
  | nil => simp at h
  | cons c domain ih =>
    have hcons : ∀ {front}, domain.flatMap String.utf8EncodeChar
        = front ++ 0x2e :: suffix.flatMap String.utf8EncodeChar →
        ∃ front, c :: domain = front ++ '.' :: suffix := by
      intro front hrest
      obtain ⟨before, rfl⟩ := ih hrest
      exact ⟨c :: before, rfl⟩
    rw [flatMap_cons] at h
    obtain ⟨before, -, hrest⟩ | ⟨after, hc, hrest⟩ := List.append_eq_append_iff.mp h
    · exact hcons hrest
    · cases after with
      | nil => exact hcons (show _ = [] ++ _ from hrest.symm)
      | cons b after =>
        -- the dot is a byte of the first character, and then it is that character
        obtain ⟨rfl, hsuffix⟩ := cons.inj hrest
        have hdot : String.utf8EncodeChar c = [0x2e] :=
          utf8EncodeChar_of_ascii_mem (by rw [hc]; simp) (by decide)
        have hafter : after = [] := by
          have hlen := congrArg List.length (hc.symm.trans hdot)
          simp only [length_append, length_cons, length_nil] at hlen
          exact eq_nil_of_length_eq_zero (by omega)
        subst hafter
        refine ⟨[], ?_⟩
        have htext : String.ofList (c :: domain) = String.ofList ('.' :: suffix) := by
          apply as_bytes_inj
          rw [as_bytes, as_bytes, String.toList_ofList, String.toList_ofList,
            flatMap_cons, flatMap_cons, hdot, hsuffix]
          rfl
        exact String.ofList_injective htext

theorem has_label_suffix_bytes_eq (domain suffix : String) :
    has_label_suffix_bytes (as_bytes domain) (as_bytes suffix)
      = has_label_suffix domain.toList suffix.toList := by
  rw [Bool.eq_iff_iff, has_label_suffix_iff, has_label_suffix_bytes, preceded_suffix_iff]
  constructor
  · rintro ⟨front, h⟩
    exact exists_dot_of_bytes h
  · rintro ⟨front, h⟩
    refine ⟨front.flatMap String.utf8EncodeChar, ?_⟩
    rw [as_bytes, h, flatMap_append, flatMap_cons]
    rfl

theorem anyParent_iff (check : List Char → Bool) (domain : List Char) :
    anyParent check domain = true ↔
      ∃ front suffix, domain = front ++ '.' :: suffix ∧ check suffix := by
  induction domain with
  | nil => simp [anyParent]
  | cons c cs ih =>
    simp only [anyParent, Bool.or_eq_true, Bool.and_eq_true, decide_eq_true_eq, ih]
    constructor
    · rintro (⟨rfl, h⟩ | ⟨front, suffix, rfl, h⟩)
      · exact ⟨[], cs, rfl, h⟩
      · exact ⟨c :: front, suffix, rfl, h⟩
    · rintro ⟨front, suffix, heq, h⟩
      cases front with
      | nil =>
        obtain ⟨rfl, rfl⟩ := cons.inj heq
        exact .inl ⟨rfl, h⟩
      | cons d front =>
        obtain ⟨rfl, rfl⟩ := cons.inj heq
        exact .inr ⟨front, suffix, rfl, h⟩

variable (patterns : List String)

theorem suffix_index_mem (text : List Char) :
    ((SuffixDomainSetIndex.new patterns).exact_or_subdomain.contains (String.ofList text) ↔
        ∃ p ∈ patterns, p.toList = text ∧ p.toList.head? ≠ some '.')
      ∧ ((SuffixDomainSetIndex.new patterns).subdomain_only.contains (String.ofList text) ↔
        ∃ p ∈ patterns, p.toList = '.' :: text) := by
  constructor
  · simp only [SuffixDomainSetIndex.new, contains_iff_mem, mem_filter, bne_iff_ne]
    constructor
    · rintro ⟨hmem, hhead⟩
      exact ⟨_, hmem, String.toList_ofList, hhead⟩
    · rintro ⟨p, hmem, rfl, hhead⟩
      rw [String.ofList_toList]
      exact ⟨hmem, hhead⟩
  · simp only [SuffixDomainSetIndex.new, contains_iff_mem, mem_filterMap]
    constructor
    · rintro ⟨p, hmem, hp⟩
      refine ⟨p, hmem, ?_⟩
      split at hp
      · rename_i stripped heq
        have := String.ofList_injective (Option.some.inj hp)
        rw [heq, this]
      · cases hp
    · rintro ⟨p, hmem, hp⟩
      exact ⟨p, hmem, by simp [hp]⟩

/-- The suffix index matches what some pattern matches. A pattern with a leading
dot is found among the parents only, any other also at the domain itself. -/
theorem suffix_index_matches (domain : List Char) :
    (SuffixDomainSetIndex.new patterns).matches domain
      = patterns.any fun p => suffix_matches domain p.toList := by
  rw [Bool.eq_iff_iff]
  simp only [SuffixDomainSetIndex.matches, Bool.or_eq_true, anyParent_iff, any_eq_true,
    (suffix_index_mem patterns _).1, (suffix_index_mem patterns _).2]
  constructor
  -- three hits of the walk: the domain itself, a parent in the one set, a parent in the other
  · rintro (⟨p, hp, rfl, hhead⟩ | ⟨front, suffix, hdom, ⟨p, hp, rfl, hhead⟩ | ⟨p, hp, hstrip⟩⟩)
    · refine ⟨p, hp, ?_⟩
      unfold suffix_matches
      split
      · rename_i h
        simp [h] at hhead
      · simp
    · refine ⟨p, hp, ?_⟩
      unfold suffix_matches
      split
      · rename_i h
        simp [h] at hhead
      · rw [(has_label_suffix_iff domain p.toList).mpr ⟨front, hdom⟩, Bool.or_true]
    · refine ⟨p, hp, ?_⟩
      rw [hstrip, suffix_matches]
      exact (has_label_suffix_iff domain suffix).mpr ⟨front, hdom⟩
  · rintro ⟨p, hp, hmatch⟩
    unfold suffix_matches at hmatch
    split at hmatch
    · rename_i stripped h
      obtain ⟨front, hdom⟩ := (has_label_suffix_iff domain stripped).mp hmatch
      exact .inr ⟨front, stripped, hdom, .inr ⟨p, hp, h⟩⟩
    · rename_i hnodot
      -- the second arm of `suffix_matches` is the one without a leading dot
      have hhead : p.toList.head? ≠ some '.' := by
        intro h
        cases hl : p.toList with
        | nil => simp [hl] at h
        | cons c cs =>
          obtain rfl : c = '.' := by simpa [hl] using h
          exact hnodot cs hl
      simp only [Bool.or_eq_true, decide_eq_true_eq] at hmatch
      rcases hmatch with rfl | hlabel
      · exact .inl ⟨p, hp, rfl, hhead⟩
      · obtain ⟨front, hdom⟩ := (has_label_suffix_iff domain p.toList).mp hlabel
        exact .inr ⟨front, p.toList, hdom, .inl ⟨p, hp, rfl, hhead⟩⟩

/-! ## A set matches when a pattern does -/

/-- One raw pattern of a rule against one domain as a packet brings it. -/
def pattern_matches (engines : TextEngines) (key : DomainKey) (domain pattern : String) : Bool :=
  linear_pattern_matches engines key (normalize_query_domain domain) (normalize_pattern key pattern)

theorem full_index_matches (domain : String) (hdomain : to_ascii_lowercase domain = domain) :
    (patterns.map fun p => to_ascii_lowercase (trim_end_matches '.' p)).contains domain
      = patterns.any fun p => eq_ignore_ascii_case domain (trim_end_matches '.' p) := by
  rw [Bool.eq_iff_iff]
  simp only [contains_iff_mem, mem_map, any_eq_true, eq_ignore_ascii_case, hdomain,
    decide_eq_true_eq]
  constructor
  · rintro ⟨p, hp, h⟩
    exact ⟨p, hp, h.symm⟩
  · rintro ⟨p, hp, h⟩
    exact ⟨p, hp, h.symm⟩

variable {engines : TextEngines} {patterns : List String}

/-- All regexes compiled: each pattern has one, and they match as the patterns. -/
theorem regex_vec_ok {regex : List (String → Bool)}
    (h : regex_vec engines patterns = .ok regex) : (∀ p ∈ patterns, (engines.regex_new p).isSome)
      ∧ ∀ text, regex.any (fun is_match => is_match text)
          = patterns.any fun p => (engines.regex_new p).any (· text) := by
  constructor
  · intro p hp
    obtain ⟨is_match, hm⟩ := mapM_mem_ok h p hp
    cases hnew : engines.regex_new p with
    | none => simp [hnew] at hm
    | some is_match => rfl
  · intro text
    refine mapM_any (fun p _ is_match hm => ?_) h
    cases hnew : engines.regex_new p with
    | none => simp [hnew] at hm
    | some m =>
      obtain rfl : m = is_match := by simpa [hnew] using hm
      rfl

theorem regex_set_ok {is_match : String → Bool} (h : regex_set engines patterns = .ok is_match) :
    engines.regex_set_new patterns = some is_match := by
  unfold regex_set at h
  split at h
  · rename_i m hnew
    rw [hnew, Except.ok.inj h]
  · split at h <;> cases h

theorem index_matches (hdoc : engines.Documented) {key : DomainKey} {index : SharedDomainSetIndex}
    (hregex : key = .Regex → ∀ p ∈ patterns, (engines.regex_new p).isSome)
    (h : SharedDomainSetIndex.new engines key patterns = .ok (some index)) (domain : String)
    (hdomain : to_ascii_lowercase domain = domain) :
    index.matches domain = patterns.any (linear_pattern_matches engines key domain) := by
  revert h
  -- only the two engines need what they document
  fun_cases SharedDomainSetIndex.new engines key patterns with
  | case2 => rintro ⟨⟩; exact full_index_matches patterns domain hdomain
  | case4 _ _ is_match hnew => rintro ⟨⟩; exact hdoc.aho_corasick_is_match patterns is_match hnew domain
  | case6 => rintro ⟨⟩; exact suffix_index_matches patterns domain.toList
  | case7 _ is_match hnew =>
    rintro ⟨⟩
    exact hdoc.regex_set_is_match patterns is_match (regex_set_ok hnew) (hregex rfl) domain
  | _ => intro h; cases h

/-- **A domain set matches when one of its patterns does**, whatever index it was
given. -/
theorem SharedDomainSet.matches_eq (hdoc : engines.Documented) {raw_patterns : List String}
    {key : DomainKey} {set : SharedDomainSet}
    (h : SharedDomainSet.from_vec engines raw_patterns key = .ok set) (domain : String) :
    set.matches domain = raw_patterns.any (pattern_matches engines key domain) := by
  obtain ⟨regex, hregex, h⟩ := bind_ok h
  obtain ⟨index, hindex, rfl⟩ := bind_pure_ok h
  have hlow := lowercase_normalize_query_domain domain
  -- patterns are stored in normal form
  have hpats : ∀ q : String → Bool, (normalize_patterns raw_patterns key).any q
      = raw_patterns.any fun p => q (normalize_pattern key p) := by
    intro q
    rw [normalize_patterns, any_map]
    rfl
  -- a set of regexes exists only when each of them compiled
  have hall : key = .Regex →
      ∀ p ∈ normalize_patterns raw_patterns key, (engines.regex_new p).isSome := by
    intro hkey
    rw [if_pos hkey] at hregex
    exact (regex_vec_ok hregex).1
  cases index with
  | some index => exact (index_matches hdoc hall hindex _ hlow).trans (hpats _)
  | none =>
    refine Eq.trans ?_ (hpats (linear_pattern_matches engines key (normalize_query_domain domain)))
    cases key with
    | Full | Keyword | Suffix => rfl
    | Regex => exact (regex_vec_ok hregex).2 _

/-- **The indexes answer as the linear matcher**, on the normal forms of query and patterns. The
matcher's suffix test on bytes is the one on characters. -/
theorem domain_set_matches_linear (hdoc : engines.Documented) {raw_patterns : List String}
    {key : DomainKey} {set : SharedDomainSet}
    (h : SharedDomainSet.from_vec engines raw_patterns key = .ok set) (query : String) :
    set.key = key ∧ set.patterns = normalize_patterns raw_patterns key ∧
      set.matches query
        = linear_domain_set_matches key (normalize_query_domain query) set.patterns set.regex ∧
      ∀ domain suffix, has_label_suffix domain.toList suffix.toList
        = has_label_suffix_bytes (Text.as_bytes domain) (Text.as_bytes suffix) := by
  obtain ⟨regex, hregex, h⟩ := bind_ok h
  obtain ⟨index, hindex, rfl⟩ := bind_pure_ok h
  refine ⟨rfl, rfl, ?_, fun domain suffix => (has_label_suffix_bytes_eq domain suffix).symm⟩
  have hall : key = .Regex → _ ∧ _ := fun hkey => regex_vec_ok (by rwa [if_pos hkey] at hregex)
  cases index with
  | none => rfl
  | some index =>
    refine (index_matches hdoc (fun hkey => (hall hkey).1) hindex _
      (lowercase_normalize_query_domain query)).trans ?_
    cases key with
    | Full | Keyword | Suffix => rfl
    | Regex => exact ((hall rfl).2 _).symm

/-- Engines that search by trying every pattern; no regex compiles. -/
def naive_engines : TextEngines where
  regex_new _ := none
  regex_set_new _ := none
  aho_corasick_new patterns := .ok fun text => patterns.any fun p => Text.contains p text

theorem domain_set_matches_linear_subdomain :
    ∃ set, SharedDomainSet.from_vec naive_engines (List.replicate 32 ".b.c") .Suffix = .ok set ∧
      set.index.isSome ∧ set.matches "a.b.c"
        = linear_domain_set_matches .Suffix "a.b.c" set.patterns set.regex :=
  ⟨_, rfl, rfl, (@domain_set_matches_linear naive_engines
    ⟨nofun, fun _ _ h _ => (by cases h; rfl)⟩ (List.replicate 32 ".b.c") _ _ rfl
    "a.b.c").2.2.1⟩

/-! ## Reading the bitmap back -/

section

variable (domain : String) (bitmap : List (BitVec 32))

theorem fill_bit_length (bit_length : Nat)
    (set : DomainSet) : (fill_bit bit_length domain bitmap set).length = bitmap.length := by
  unfold fill_bit
  split
  · rfl
  · split
    · rw [Bitmap.set_length]
    · rfl

theorem fill_bit_has (bit_length : Nat)
    (set : DomainSet) (hwords : bit_length ≤ 32 * bitmap.length) (bit : Nat) (hbit : bit < bit_length) :
    Bitmap.has (fill_bit bit_length domain bitmap set) bit
      = (Bitmap.has bitmap bit || (decide (set.bit_index = bit) && set.data.matches domain)) := by
  unfold fill_bit
  by_cases hskip : set.bit_index ≥ bit_length ∨ Bitmap.has bitmap set.bit_index
  · rw [if_pos hskip]
    by_cases heq : set.bit_index = bit
    · -- not out of range, so the bit is there already
      rcases hskip with hge | hhas
      · omega
      · rw [← heq, hhas, Bool.true_or]
    · simp [heq]
  · rw [if_neg hskip]
    split
    · rename_i hm
      rw [Bitmap.has_set _ _ _ (by omega), hm, Bool.and_true]
    · rename_i hm
      simp [hm]

theorem fill_bitmap_has (bit_length : Nat) (sets : List DomainSet)
    (hwords : bit_length ≤ 32 * bitmap.length) (bit : Nat) (hbit : bit < bit_length) :
    Bitmap.has (sets.foldl (fill_bit bit_length domain) bitmap) bit
      = (Bitmap.has bitmap bit
          || sets.any fun set => decide (set.bit_index = bit) && set.data.matches domain) := by
  induction sets generalizing bitmap with
  | nil => simp
  | cons set sets ih =>
    have hlen := fill_bit_length domain bitmap bit_length set
    rw [foldl_cons, ih _ (by rw [hlen]; exact hwords),
      fill_bit_has domain bitmap bit_length set hwords bit hbit, any_cons, Bool.or_assoc]

/-- **The bit of a position** is set when a set of that position matches. -/
theorem DomainMatcher.fill_domain_bitmap_spec (matcher : DomainMatcher)
    (hlen : matcher.bitmap_words ≤ bitmap.length) :
    ∃ filled, matcher.fill_domain_bitmap domain bitmap = .ok filled
      ∧ ∀ bit < matcher.bit_length, Bitmap.has filled bit
          = matcher.sets.any fun set => decide (set.bit_index = bit) && set.data.matches domain := by
  refine ⟨_, by rw [fill_domain_bitmap, if_neg (Nat.not_lt.mpr hlen)], fun bit hbit => ?_⟩
  have hwords : matcher.bit_length ≤ 32 * (List.replicate matcher.bitmap_words 0#32).length := by
    rw [length_replicate, bitmap_words]
    omega
  rw [fill_bitmap, fill_bitmap_has _ _ _ _ hwords bit hbit]
  -- the domain is put in normal form twice
  have hnorm : ∀ set : DomainSet, set.data.matches (normalize_query_domain domain)
      = set.data.matches domain := by
    intro set
    simp only [SharedDomainSet.matches, normalize_query_domain_idem]
  simp only [Bitmap.has_replicate_zero, Bool.false_or, hnorm]

end

end DaeNext.RoutingDomain
