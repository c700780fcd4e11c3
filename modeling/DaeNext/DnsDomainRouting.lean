/-
DNS responses on their way into the domain routing map
(`dae-resident-dns/src/domain_routing.rs` and `domain_routing/revision.rs`).

A response takes a revision of its key when it begins and may be overtaken until it commits: by a
response of the same key that began later, or by a removal of the key. Revisions count up; the
table keeps, for a key with responses in progress, the last revision that was committed or
removed. A poisoned lock of the table is recovered by a fresh table with an identity of its own
(`epoch`), which no outstanding revision has.

A commit holds the mutation lock from the check of its revision to the mark it leaves in the table,
but revisions are begun and dropped without that lock. So a commit is two steps here, with
`committed` in the second one. The fence and the kernel map are shared with other generations,
which may change them between any two steps.
-/
import DaeNext.DnsCacheStore
import DaeNext.DomainRoutingFence
import DaeNext.LibTableTotal

set_option autoImplicit false

namespace DaeNext.Dns

open DomainRouting
open DomainRoutingFence (GenerationToken ResidentDomainRoutingMapOwner)

/-! ## Revisions -/

structure PendingResponses where
  count : Nat := 0
  committed : Nat := 0
deriving DecidableEq, Repr

structure ResponseRevisions where
  epoch : Nat := 0
  sequence : Nat := 0
  pending : Table DnsCacheKey PendingResponses := {}

structure ResponseRevision where
  key : DnsCacheKey
  sequence : Nat
  epoch : Nat
deriving DecidableEq

/-- `checked_add(1)` on 64 bits. -/
def checked_succ (n : Nat) : Option Nat := if n + 1 < UInt64.size then some (n + 1) else none

namespace ResponseRevisions

variable (self : ResponseRevisions)

/-- `begin`; the count can only be exhausted after the sequence is. -/
def begin_ (key : DnsCacheKey) : Except String ResponseRevision × ResponseRevisions :=
  match checked_succ self.sequence with
  | none => (.error "resident DNS response revision exhausted", self)
  | some sequence =>
    let pending := (self.pending[key]?).getD {}
    match checked_succ pending.count with
    | none =>
      (.error "resident DNS response revision count exhausted",
        { self with sequence, pending := self.pending.insert key pending })
    | some count =>
      (.ok { key, sequence, epoch := self.epoch },
        { self with sequence, pending := self.pending.insert key { pending with count } })

def invalidate (key : DnsCacheKey) : Except String Unit × ResponseRevisions :=
  match checked_succ self.sequence with
  | none => (.error "resident DNS response revision exhausted", self)
  | some sequence =>
    (.ok (), { self with
      sequence
      pending := self.pending.modify key fun pending => { pending with committed := sequence } })

def can_commit (revision : ResponseRevision) : Bool :=
  revision.epoch = self.epoch &&
    (self.pending[revision.key]?).any fun pending => pending.committed < revision.sequence

def committed (revision : ResponseRevision) : Except String Unit × ResponseRevisions :=
  if revision.epoch ≠ self.epoch then
    (.error "resident DNS response revision invalidated by poison recovery", self)
  else
    match self.pending[revision.key]? with
    | none => (.error "resident DNS response revision was released before commit", self)
    | some pending =>
      (.ok (), { self with
        pending := self.pending.insert revision.key
          { pending with committed := max pending.committed revision.sequence } })

def drop (revision : ResponseRevision) : ResponseRevisions :=
  if revision.epoch ≠ self.epoch then self
  else
    match self.pending[revision.key]? with
    | none => self
    | some pending =>
      if pending.count - 1 = 0 then { self with pending := self.pending.erase revision.key }
      else
        { self with
          pending := self.pending.insert revision.key { pending with count := pending.count - 1 } }

/-- `lock_state` on a poisoned lock. -/
def recover : ResponseRevisions := { epoch := self.epoch + 1 }

end ResponseRevisions

/-! ## Routing -/

structure ResidentDnsDomainRoutingUpdatePlan where
  key : DnsCacheKey
  entry : DnsCacheEntry
  ips : List DomainRoutingIpKey
  restore_only : Bool

abbrev MapApply (κ : Type) :=
  UInt32 → List DomainRoutingStateEntry → List DomainRoutingIpKey → κ → Except String Unit × κ

/-- `ResidentDnsDomainRouting` with the shared fence and kernel. -/
structure ResidentDnsDomainRouting (κ : Type) where
  map_id : UInt32
  generation : GenerationToken
  fence : ResidentDomainRoutingMapOwner
  kernel : κ
  owner : DomainRoutingOwner
  cache : DnsCacheStore
  response_revisions : ResponseRevisions

def bitmap_from_words (words : List UInt32) : DomainBitmap :=
  Vector.ofFn fun index => ((words[index.val]?).getD 0).toBitVec

def event_from_keys (owner_key : String) (bitmap_words : List UInt32)
    (ips : List DomainRoutingIpKey) : DomainRoutingDnsEvent where
  owner_key
  bitmap := bitmap_from_words bitmap_words
  ips := normalize_ip_keys ips

def event_remove (owner_key : String) : DomainRoutingDnsEvent where
  owner_key
  bitmap := Vector.replicate 32 0
  ips := []

def DnsCacheStore.shared_entry (self : DnsCacheStore) (key : DnsCacheKey) : Option DnsCacheEntry :=
  self.entries.get key

namespace ResidentDnsDomainRouting

variable {κ : Type} (self : ResidentDnsDomainRouting κ)

def apply_event (event : DomainRoutingDnsEvent) (apply : MapApply κ) :
    Except String Unit × ResidentDnsDomainRouting κ :=
  let (result, fence, owner, kernel) :=
    DomainRoutingFence.apply_event_with self.fence self.generation self.map_id self.owner event apply
      self.kernel
  (result, { self with fence, owner, kernel })

def apply_events (events : List DomainRoutingDnsEvent) (apply : MapApply κ) :
    Except String Unit × ResidentDnsDomainRouting κ :=
  let (result, fence, owner, kernel) :=
    DomainRoutingFence.apply_events_with self.fence self.generation self.map_id self.owner events apply
      self.kernel
  (result, { self with fence, owner, kernel })

/-- An accepted negative or now unmatched response takes the owner of its key away. -/
def commit_removal (key : DnsCacheKey) (apply : MapApply κ) :
    Except String Bool × ResidentDnsDomainRouting κ :=
  match self.cache.shared_entry key with
  | none => (.ok true, self)
  | some entry =>
    match self.apply_event (event_remove entry.route_owner_key) apply with
    | (.error error, self) => (.error ("remove superseded DNS owner: " ++ error), self)
    | (.ok (), self) => (.ok true, { self with cache := (self.cache.discard key).2 })

def commit_update (plan : ResidentDnsDomainRoutingUpdatePlan) (now : Int) (apply : MapApply κ) :
    Except String Bool × ResidentDnsDomainRouting κ :=
  if plan.entry.cache_expires_at ≤ now ∨ self.cache.capacity = 0 ∨
      plan.restore_only = true ∧ self.cache.entries.contains_key plan.key = true then
    (.ok false, self)
  else
    let (victim, cache) := self.cache.capacity_eviction_key_for_insert plan.key
    let evicted := victim.bind cache.shared_entry
    let removes := (evicted.toList.filter fun entry => !entry.route_owner_key.isEmpty).map
      fun entry => event_remove entry.route_owner_key
    let update := event_from_keys plan.entry.route_owner_key plan.entry.domain_bitmap plan.ips
    match { self with cache }.apply_events (removes ++ [update]) apply with
    | (.error error, self) => (.error ("apply resident DNS domain routing response: " ++ error), self)
    | (.ok (), self) =>
      match self.cache.insert_with_eviction plan.key plan.entry fun _ _ => Except.ok () with
      | (.error error, cache) => (.error error, { self with cache })
      | (.ok _, cache) => (.ok true, { self with cache })

/-- `commit_response_locked` before `committed`: `false` where it returns without a commit. -/
def commit_begin (plan : Option ResidentDnsDomainRoutingUpdatePlan) (revision : ResponseRevision)
    (now : Int) (apply : MapApply κ) : Except String Bool × ResidentDnsDomainRouting κ :=
  if self.response_revisions.can_commit revision then
    match plan with
    | none => self.commit_removal revision.key apply
    | some plan => self.commit_update plan now apply
  else (.ok false, self)

def commit_end (revision : ResponseRevision) (publish_response : Except String Unit) :
    Except String Bool × ResidentDnsDomainRouting κ :=
  match self.response_revisions.committed revision with
  | (.error error, response_revisions) => (.error error, { self with response_revisions })
  | (.ok (), response_revisions) =>
    (publish_response.map fun _ => true, { self with response_revisions })

def commit_response_locked (plan : Option ResidentDnsDomainRoutingUpdatePlan)
    (revision : ResponseRevision) (now : Int) (apply : MapApply κ)
    (publish_response : Except String Unit) : Except String Bool × ResidentDnsDomainRouting κ :=
  match self.commit_begin plan revision now apply with
  | (.ok true, self) => self.commit_end revision publish_response
  | (result, self) => (result, self)

/-- `remove_key_locked` before `remove_response`. -/
def remove_entry (key : DnsCacheKey) (apply : MapApply κ) :
    Except String Unit × ResidentDnsDomainRouting κ :=
  match self.cache.shared_entry key with
  | none =>
    let (result, response_revisions) := self.response_revisions.invalidate key
    (result, { self with response_revisions })
  | some entry =>
    let (result, self) :=
      if entry.route_owner_key.isEmpty then (.ok (), self)
      else self.apply_event (event_remove entry.route_owner_key) apply
    match result with
    | .error error => (.error ("remove resident DNS domain routing owner: " ++ error), self)
    | .ok () =>
      match self.response_revisions.invalidate key with
      | (.error error, response_revisions) => (.error error, { self with response_revisions })
      | (.ok (), response_revisions) =>
        (.ok (), { self with response_revisions, cache := (self.cache.discard key).2 })

def remove_key_locked (key : DnsCacheKey) (apply : MapApply κ) (remove_response : Except String Unit) :
    Except String Unit × ResidentDnsDomainRouting κ :=
  match self.remove_entry key apply with
  | (.error error, self) => (.error error, self)
  | (.ok (), self) => (remove_response, self)

end ResidentDnsDomainRouting

/-! ## Runs -/

/-- A response, in progress as long as its revision is live, with the moment of its commit. -/
structure Response where
  revision : ResponseRevision
  live : Bool
  committed : Option Nat

/-- The routing with all responses by the moment they began, the removals and the response that
holds the mutation lock. -/
structure Responses (κ : Type) where
  routing : ResidentDnsDomainRouting κ
  responses : Table Nat Response
  removals : List (DnsCacheKey × Nat)
  committing : Option Nat
  clock : Nat

inductive ResponseEvent (κ : Type) where
  | begin_response (key : DnsCacheKey)
  | abandon (response : Nat)
  | commit_begin (response : Nat) (plan : Option ResidentDnsDomainRoutingUpdatePlan) (now : Int)
      (apply : MapApply κ)
  | commit_end (publish_response : Except String Unit)
  | remove_key (key : DnsCacheKey) (apply : MapApply κ)
  | poison
  | other_generation (fence : ResidentDomainRoutingMapOwner) (kernel : κ)

namespace Responses

variable {κ : Type} (self : Responses κ)

def set_revisions (response_revisions : ResponseRevisions) : Responses κ :=
  { self with routing := { self.routing with response_revisions } }

def begin_response (key : DnsCacheKey) : Responses κ :=
  match self.routing.response_revisions.begin_ key with
  | (.error _, response_revisions) => self.set_revisions response_revisions
  | (.ok revision, response_revisions) =>
    { self.set_revisions response_revisions with
      responses := self.responses.insert self.clock { revision, live := true, committed := none } }

/-- The drop of a revision. One whose commit is under way is borrowed. -/
def abandon (response : Nat) : Responses κ :=
  match self.responses[response]? with
  | none => self
  | some value =>
    if value.live = true ∧ self.committing ≠ some response then
      { self.set_revisions (self.routing.response_revisions.drop value.revision) with
        responses := self.responses.insert response { value with live := false } }
    else self

def commit_begin (response : Nat) (plan : Option ResidentDnsDomainRoutingUpdatePlan) (now : Int)
    (apply : MapApply κ) : Responses κ :=
  match self.responses[response]? with
  | none => self
  | some value =>
    if value.live = true ∧ self.committing = none then
      match self.routing.commit_begin plan value.revision now apply with
      | (.ok true, routing) =>
        { self with
          routing
          responses := self.responses.insert response { value with committed := some self.clock }
          committing := some response }
      | (_, routing) => { self with routing }
    else self

def commit_end (publish_response : Except String Unit) : Responses κ :=
  match self.committing with
  | none => self
  | some response =>
    match self.responses[response]? with
    | none => self
    | some value =>
      { self with
        routing := (self.routing.commit_end value.revision publish_response).2
        committing := none }

def remove_key (key : DnsCacheKey) (apply : MapApply κ) : Responses κ :=
  if self.committing = none then
    match self.routing.remove_entry key apply with
    | (.error _, routing) => { self with routing }
    | (.ok (), routing) => { self with routing, removals := (key, self.clock) :: self.removals }
  else self

def act : ResponseEvent κ → Responses κ
  | .begin_response key => self.begin_response key
  | .abandon response => self.abandon response
  | .commit_begin response plan now apply => self.commit_begin response plan now apply
  | .commit_end publish_response => self.commit_end publish_response
  | .remove_key key apply => self.remove_key key apply
  | .poison => self.set_revisions self.routing.response_revisions.recover
  | .other_generation fence kernel => { self with routing := { self.routing with fence, kernel } }

/-- Each event takes one tick. -/
def step (event : ResponseEvent κ) : Responses κ :=
  { self.act event with clock := self.clock + 1 }

/-- Routing without responses; owner, cache, fence and kernel are anything. -/
def start (routing : ResidentDnsDomainRouting κ) : Responses κ where
  routing := { routing with response_revisions := {} }
  responses := {}
  removals := []
  committing := none
  clock := 0

def run (routing : ResidentDnsDomainRouting κ) (events : List (ResponseEvent κ)) : Responses κ :=
  Run.after step (start routing) events

end Responses

end DaeNext.Dns
