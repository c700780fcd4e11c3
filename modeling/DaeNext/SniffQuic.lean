/-
The ClientHello in the CRYPTO frames of QUIC Initial packets (`dae-sniffing/src/quic.rs`).

A datagram is the list of what `decrypt_quic_initial_packet` gives for its packets in turn: the
plaintext, or the error that ends the datagram. The data of CRYPTO frames is kept by offset, so of
two frames at one offset the later stays, also when it is the shorter one. What is left when the
frames are put together is the message where the frames that stayed cover it.
-/
import DaeNext.LibFallible
import DaeNext.LibTable
import DaeNext.SniffTls

set_option autoImplicit false

namespace DaeNext.Sniffing

open Fallible List

/-! ## Reading frames -/

def read_u8 (input : List UInt8) (offset : Nat) : Except SniffingError (UInt8 × Nat) :=
  match input[offset]? with
  | none => .error .NeedMore
  | some byte => .ok (byte, offset + 1)

def read_slice (input : List UInt8) (offset len : Nat) : Except SniffingError (List UInt8 × Nat) :=
  if UInt64.size ≤ offset + len then .error .NotApplicable
  else if input.length < offset + len then .error .NeedMore
  else .ok (slice input offset (offset + len), offset + len)

def read_varint_rest (input : List UInt8) : Nat → Nat → Nat → Except SniffingError (Nat × Nat)
  | 0, value, offset => .ok (value, offset)
  | len + 1, value, offset => do
    let (byte, offset) ← read_u8 input offset
    read_varint_rest input len (value * 256 + byte.toNat) offset

def read_varint (input : List UInt8) (offset : Nat) : Except SniffingError (Nat × Nat) := do
  let (first, offset) ← read_u8 input offset
  read_varint_rest input (2 ^ (first.toNat / 64) - 1) (first.toNat % 64) offset

def skip_varints (input : List UInt8) : Nat → Nat → Except SniffingError Nat
  | 0, offset => .ok offset
  | count + 1, offset => do
    let (_, offset) ← read_varint input offset
    skip_varints input count offset

def skip_ack_frame (input : List UInt8) (offset : Nat) (has_ecn : Bool) : Except SniffingError Nat := do
  let offset ← skip_varints input 2 offset
  let (range_count, offset) ← read_varint input offset
  let offset ← skip_varints input 1 offset
  let offset ← skip_varints input (2 * range_count) offset
  if has_ecn then skip_varints input 3 offset else .ok offset

/-- The frame after its type: CRYPTO data or nothing, and where it ends; or the end of the loop. -/
def read_frame (plaintext : List UInt8) (frame_type : UInt8) (offset : Nat) :
    Except SniffingError (Option (Option (Nat × List UInt8) × Nat)) :=
  if frame_type = 0x00 ∨ frame_type = 0x01 then .ok (some (none, offset))
  else if frame_type = 0x02 ∨ frame_type = 0x03 then do
    let offset ← skip_ack_frame plaintext offset (frame_type == 0x03)
    .ok (some (none, offset))
  else if frame_type = 0x06 then do
    let (crypto_offset, offset) ← read_varint plaintext offset
    let (crypto_len, offset) ← read_varint plaintext offset
    let (data, offset) ← read_slice plaintext offset crypto_len
    .ok (some (some (crypto_offset, data), offset))
  else if frame_type = 0x1c ∨ frame_type = 0x1d then .ok none
  else .error .NotFound

section

variable {input : List UInt8} {offset next : Nat}

theorem read_u8_le {byte : UInt8} (h : read_u8 input offset = .ok (byte, next)) : offset ≤ next := by
  unfold read_u8 at h
  split at h
  · cases h
  · cases h
    exact Nat.le_succ _

theorem read_varint_rest_le {len value result : Nat}
    (h : read_varint_rest input len value offset = .ok (result, next)) : offset ≤ next := by
  induction len generalizing value offset with
  | zero =>
    cases h
    exact le_rfl
  | succ len ih =>
    obtain ⟨⟨byte, middle⟩, hbyte, h⟩ := bind_ok h
    exact Nat.le_trans (read_u8_le hbyte) (ih h)

theorem read_varint_le {value : Nat} (h : read_varint input offset = .ok (value, next)) :
    offset ≤ next := by
  obtain ⟨⟨first, middle⟩, hfirst, h⟩ := bind_ok h
  exact Nat.le_trans (read_u8_le hfirst) (read_varint_rest_le h)

theorem skip_varints_le {count : Nat} (h : skip_varints input count offset = .ok next) :
    offset ≤ next := by
  induction count generalizing offset with
  | zero => exact Nat.le_of_eq (Except.ok.inj h)
  | succ count ih =>
    obtain ⟨⟨value, middle⟩, hvalue, h⟩ := bind_ok h
    exact Nat.le_trans (read_varint_le hvalue) (ih h)

theorem skip_ack_frame_le {has_ecn : Bool} (h : skip_ack_frame input offset has_ecn = .ok next) :
    offset ≤ next := by
  obtain ⟨a, ha, h⟩ := bind_ok h
  obtain ⟨⟨count, b⟩, hb, h⟩ := bind_ok h
  obtain ⟨c, hc, h⟩ := bind_ok h
  obtain ⟨d, hd, h⟩ := bind_ok h
  have hle : d ≤ next := by
    split_ifs at h with hecn
    · exact skip_varints_le h
    · exact Nat.le_of_eq (Except.ok.inj h)
  have ha := skip_varints_le ha
  have hb := read_varint_le hb
  have hc := skip_varints_le hc
  have hd := skip_varints_le hd
  omega

theorem read_frame_le {frame_type : UInt8} {frame : Option (Nat × List UInt8)}
    (h : read_frame input frame_type offset = .ok (some (frame, next))) : offset ≤ next := by
  unfold read_frame at h
  split_ifs at h with hpadding hack hcrypto hclose
  · obtain ⟨-, rfl⟩ := Prod.mk.inj (Option.some.inj (Except.ok.inj h))
    exact le_rfl
  · obtain ⟨a, ha, h⟩ := bind_ok h
    obtain ⟨-, rfl⟩ := Prod.mk.inj (Option.some.inj (Except.ok.inj h))
    exact skip_ack_frame_le ha
  · obtain ⟨⟨crypto_offset, a⟩, ha, h⟩ := bind_ok h
    obtain ⟨⟨crypto_len, b⟩, hb, h⟩ := bind_ok h
    obtain ⟨⟨data, c⟩, hc, h⟩ := bind_ok h
    obtain ⟨-, rfl⟩ := Prod.mk.inj (Option.some.inj (Except.ok.inj h))
    rw [read_slice] at hc
    split_ifs at hc with hsize hshort
    cases hc
    have ha := read_varint_le ha
    have hb := read_varint_le hb
    omega
  · cases h

end

/-- The loop of `extract_crypto_frames`: how it ends, and the CRYPTO frames in the order in which
they go into the map. -/
def crypto_frames (plaintext : List UInt8) (offset : Nat) :
    Except SniffingError Unit × List (Nat × List UInt8) :=
  match _h : plaintext[offset]? with
  | none => (.ok (), [])
  | some frame_type =>
    match _hread : read_frame plaintext frame_type (offset + 1) with
    | .error err => (.error err, [])
    | .ok none => (.ok (), [])
    | .ok (some (frame, next)) =>
      let (result, frames) := crypto_frames plaintext next
      (result, frame.toList ++ frames)
termination_by plaintext.length - offset
decreasing_by
  have hlt := (List.getElem?_eq_some_iff.mp _h).1
  have hle := read_frame_le _hread
  omega

/-! ## The map of frames -/

abbrev Crypto := Table Nat (List UInt8)

def insert_frames (crypto : Crypto) (frames : List (Nat × List UInt8)) : Crypto :=
  frames.foldl (fun crypto frame => crypto.insert frame.1 frame.2) crypto

def extract_crypto_frames (plaintext : List UInt8) (crypto : Crypto) :
    Except SniffingError Unit × Crypto :=
  let (result, frames) := crypto_frames plaintext 0
  (result, insert_frames crypto frames)

def assemble_from (next_offset : Nat) (out : List UInt8) :
    List (Nat × List UInt8) → Except SniffingError (List UInt8)
  | [] => .ok out
  | (offset, data) :: crypto =>
    if next_offset < offset then .error .NeedMore
    else if next_offset - offset < data.length then
      assemble_from (next_offset + (data.length - (next_offset - offset)))
        (out ++ data.drop (next_offset - offset)) crypto
    else assemble_from next_offset out crypto

def assemble_crypto_stream (crypto : Crypto) : Except SniffingError (List UInt8) :=
  assemble_from 0 [] crypto.toList

/-! ## Datagrams -/

def extract_quic_initial_crypto (found : Bool) :
    List (Except SniffingError (List UInt8)) → Crypto → Except SniffingError Bool × Crypto
  | [], crypto => (.ok found, crypto)
  | .ok plaintext :: packets, crypto =>
    match extract_crypto_frames plaintext crypto with
    | (.error err, crypto) => (.error err, crypto)
    | (.ok (), crypto) => extract_quic_initial_crypto true packets crypto
  | .error err :: _, crypto =>
    if err = .NotApplicable ∧ found then (.ok found, crypto) else (.error err, crypto)

def extract_chunks (saw_quic needs_more : Bool) :
    List (List (Except SniffingError (List UInt8))) → Crypto →
    Except SniffingError (Crypto × Bool × Bool)
  | [], crypto => .ok (crypto, saw_quic, needs_more)
  | chunk :: chunks, crypto =>
    match extract_quic_initial_crypto false chunk crypto with
    | (.ok found, crypto) => extract_chunks (saw_quic || found) needs_more chunks crypto
    | (.error .NeedMore, crypto) => extract_chunks saw_quic true chunks crypto
    | (.error .NotApplicable, crypto) => extract_chunks saw_quic needs_more chunks crypto
    | (.error .NotFound, crypto) => extract_chunks saw_quic needs_more chunks crypto
    | (.error err, _) => .error err

def sniff_quic_initial_sni (chunks : List (List (Except SniffingError (List UInt8)))) :
    Except SniffingError String := do
  let (crypto, saw_quic, needs_more) ← extract_chunks false false chunks ∅
  let crypto_stream ← assemble_crypto_stream crypto
  if crypto_stream.isEmpty then
    .error (if needs_more then .NeedMore else if saw_quic then .NotFound else .NotApplicable)
  else (sniff_tls_client_hello_sni crypto_stream).map normalize_domain

/-! ## What the map keeps -/

/-- The frame is the last one at its offset. -/
def Stays (frames : List (Nat × List UInt8)) (offset : Nat) (data : List UInt8) : Prop :=
  ∃ before after, frames = before ++ (offset, data) :: after ∧ ∀ later ∈ after, later.1 ≠ offset

theorem getElem?_insert_frames (frames : List (Nat × List UInt8)) (offset : Nat) (data : List UInt8) :
    (insert_frames ∅ frames)[offset]? = some data ↔ Stays frames offset data := by
  induction frames using List.reverseRecOn with
  | nil =>
    exact ⟨nofun, fun ⟨before, after, h, _⟩ => (by simp at h)⟩
  | append_singleton frames frame ih =>
    obtain ⟨at_, piece⟩ := frame
    rw [insert_frames, foldl_append]
    change ((insert_frames ∅ frames).insert at_ piece)[offset]? = some data ↔ _
    rw [Table.getElem?_insert]
    constructor
    · intro h
      split_ifs at h with heq
      · cases h
        exact ⟨frames, [], by rw [heq], nofun⟩
      · obtain ⟨before, after, rfl, hlast⟩ := ih.mp h
        refine ⟨before, after ++ [(at_, piece)], by simp, fun later hlater => ?_⟩
        obtain hlater | hlater := mem_append.mp hlater
        · exact hlast later hlater
        · rw [mem_singleton.mp hlater]
          exact fun heq' => heq heq'.symm
    · rintro ⟨before, after, hframes, hlast⟩
      obtain rfl | ⟨after, last, rfl⟩ := eq_nil_or_concat after
      · obtain ⟨-, heq⟩ := append_inj' hframes rfl
        obtain ⟨rfl, rfl⟩ := Prod.mk.inj (List.singleton_inj.mp heq)
        rw [if_pos rfl]
      · rw [concat_eq_append, ← cons_append, ← append_assoc] at hframes
        obtain ⟨hframes, heq⟩ := append_inj' hframes rfl
        have hother := hlast last (by rw [concat_eq_append]; exact mem_append_right _ mem_cons_self)
        rw [← List.singleton_inj.mp heq] at hother
        rw [if_neg (fun heq' => hother heq'.symm)]
        exact ih.mpr ⟨before, after, hframes, fun later hlater =>
          hlast later (by rw [concat_eq_append]; exact mem_append_left _ hlater)⟩

/-! ## Putting the frames together -/

/-- A piece of the message, at its place. -/
def IsPiece (hello : List UInt8) (frame : Nat × List UInt8) : Prop :=
  frame.2 ≠ [] ∧ frame.1 + frame.2.length ≤ hello.length ∧
    slice hello frame.1 (frame.1 + frame.2.length) = frame.2

instance (hello : List UInt8) (frame : Nat × List UInt8) : Decidable (IsPiece hello frame) :=
  inferInstanceAs (Decidable (_ ∧ _ ∧ _))

variable {hello : List UInt8}

/-- Frames by rising offset give the message from its start on, all of it if they cover the rest. -/
theorem assemble_from_pieces {crypto : List (Nat × List UInt8)}
    (hsorted : crypto.Pairwise fun a b => a.1 < b.1)
    (hpieces : ∀ frame ∈ crypto, IsPiece hello frame) {next : Nat} (hnext : next ≤ hello.length) :
    (∀ out, assemble_from next (hello.take next) crypto = .ok out → ∃ stop, out = hello.take stop) ∧
    (assemble_from next (hello.take next) crypto = .ok hello ↔
      ∀ i, next ≤ i → i < hello.length → ∃ frame ∈ crypto, frame.1 ≤ i ∧ i < frame.1 + frame.2.length) := by
  induction crypto generalizing next with
  | nil =>
    refine ⟨fun out h => ⟨next, (Except.ok.inj h).symm⟩, ?_⟩
    constructor
    · intro h i hle hlt
      have hlength := congrArg List.length (Except.ok.inj h)
      rw [length_take] at hlength
      omega
    · intro h
      have hall : ¬next < hello.length := fun hlt => by
        obtain ⟨frame, hframe, -⟩ := h next le_rfl hlt
        cases hframe
      rw [assemble_from, take_of_length_le (by omega)]
  | cons frame crypto ih =>
    obtain ⟨offset, data⟩ := frame
    obtain ⟨hrising, hsorted⟩ := pairwise_cons.mp hsorted
    obtain ⟨hne, hle, hdata⟩ := hpieces _ mem_cons_self
    have hrest : ∀ frame ∈ crypto, IsPiece hello frame := fun f hf => hpieces f (mem_cons_of_mem _ hf)
    dsimp only at hle hdata hrising
    rw [assemble_from]
    by_cases hgap : next < offset
    · -- nothing covers the byte at the gap
      rw [if_pos hgap]
      refine ⟨nofun, ⟨nofun, fun h => ?_⟩⟩
      obtain ⟨frame, hframe, hbefore, -⟩ := h next le_rfl (by omega)
      obtain rfl | hframe := mem_cons.mp hframe
      · exact absurd hbefore (by dsimp only; omega)
      · exact absurd (hrising frame hframe) (by omega)
    · split_ifs with hnew
      · have hstop : next + (data.length - (next - offset)) = offset + data.length := by omega
        have hout : hello.take next ++ data.drop (next - offset) = hello.take (offset + data.length) := by
          have hdrop : data.drop (next - offset) = (hello.take (offset + data.length)).drop next := by
            conv_lhs => rw [← hdata, slice, drop_drop, show offset + (next - offset) = next by omega]
          have hsplit := take_append_drop next (hello.take (offset + data.length))
          rwa [take_take, Nat.min_eq_left (by omega), ← hdrop] at hsplit
        rw [hstop, hout]
        obtain ⟨hpart, hwhole⟩ := ih hsorted hrest hle
        refine ⟨hpart, hwhole.trans ⟨fun h i hi hlt => ?_, fun h i hi hlt => ?_⟩⟩
        · by_cases hin : offset + data.length ≤ i
          · obtain ⟨frame, hframe, hcovers⟩ := h i hin hlt
            exact ⟨frame, mem_cons_of_mem _ hframe, hcovers⟩
          · exact ⟨_, mem_cons_self, by dsimp only; omega⟩
        · obtain ⟨frame, hframe, hcovers⟩ := h i (by omega) hlt
          obtain rfl | hframe := mem_cons.mp hframe
          · exact absurd hcovers.2 (by dsimp only; omega)
          · exact ⟨frame, hframe, hcovers⟩
      · obtain ⟨hpart, hwhole⟩ := ih hsorted hrest hnext
        refine ⟨hpart, hwhole.trans ⟨fun h i hi hlt => ?_, fun h i hi hlt => ?_⟩⟩
        · obtain ⟨frame, hframe, hcovers⟩ := h i hi hlt
          exact ⟨frame, mem_cons_of_mem _ hframe, hcovers⟩
        · obtain ⟨frame, hframe, hcovers⟩ := h i hi hlt
          obtain rfl | hframe := mem_cons.mp hframe
          · exact absurd hcovers.2 (by dsimp only; omega)
          · exact ⟨frame, hframe, hcovers⟩

/-! ## The message -/

/-- A ClientHello message, with the name the parser finds in it. -/
structure IsClientHello (hello : List UInt8) (name : String) : Prop where
  parsed : sniff_tls_client_hello_sni hello = .ok name
  whole : hello.length = handshake_length hello + 4

theorem IsClientHello.part {name : String} (h : IsClientHello hello name) {stop : Nat}
    (hstop : stop < hello.length) (result : String) :
    sniff_tls_client_hello_sni (hello.take stop) ≠ .ok result := by
  have hlength : (hello.take stop).length = stop := by
    rw [length_take]
    omega
  have hbyte : ∀ i, i < stop → byte (hello.take stop) i = byte hello i := by
    intro i hi
    rw [byte, byte, getD_eq_getElem?_getD, getElem?_take_of_lt hi, getD_eq_getElem?_getD]
  have hwhole := h.whole
  intro hok
  rw [sniff_tls_client_hello_sni, hlength] at hok
  split_ifs at hok with hshort hkind hmore
  refine hmore ?_
  rw [handshake_length, hbyte 1 (by omega), hbyte 2 (by omega), hbyte 3 (by omega), ← handshake_length]
  omega

def frames_of (plaintexts : List (List UInt8)) : List (Nat × List UInt8) :=
  plaintexts.flatMap fun plaintext => (crypto_frames plaintext 0).2

theorem insert_frames_append (crypto : Crypto) (a b : List (Nat × List UInt8)) :
    insert_frames crypto (a ++ b) = insert_frames (insert_frames crypto a) b := foldl_append

theorem extract_quic_initial_crypto_ok {plaintexts : List (List UInt8)}
    (h : ∀ plaintext ∈ plaintexts, (crypto_frames plaintext 0).1 = .ok ()) (found : Bool) (crypto : Crypto) :
    ∃ seen, extract_quic_initial_crypto found (plaintexts.map .ok) crypto
      = (.ok seen, insert_frames crypto (frames_of plaintexts)) := by
  induction plaintexts generalizing found crypto with
  | nil => exact ⟨found, rfl⟩
  | cons plaintext plaintexts ih =>
    have hone := h plaintext mem_cons_self
    rw [map_cons, extract_quic_initial_crypto, extract_crypto_frames]
    dsimp only
    rw [hone, frames_of, flatMap_cons, insert_frames_append]
    exact ih (fun p hp => h p (mem_cons_of_mem _ hp)) true _

theorem extract_chunks_ok {chunks : List (List (List UInt8))}
    (h : ∀ plaintext ∈ chunks.flatten, (crypto_frames plaintext 0).1 = .ok ())
    (saw_quic needs_more : Bool) (crypto : Crypto) :
    ∃ seen, extract_chunks saw_quic needs_more (chunks.map (·.map .ok)) crypto
      = .ok (insert_frames crypto (frames_of chunks.flatten), seen, needs_more) := by
  induction chunks generalizing saw_quic crypto with
  | nil => exact ⟨saw_quic, rfl⟩
  | cons chunk chunks ih =>
    obtain ⟨found, hfound⟩ := extract_quic_initial_crypto_ok
      (fun p hp => h p (mem_append_left _ hp)) false crypto
    rw [map_cons, extract_chunks, hfound, flatten_cons,
      show frames_of (chunk ++ chunks.flatten) = _ from flatMap_append, insert_frames_append]
    exact ih (fun p hp => h p (mem_append_right _ hp)) (saw_quic || found) _

/-- A ClientHello for the host `a`. -/
def sample_hello : List UInt8 :=
  [1, 0, 0, 53, 3, 3] ++ List.replicate 32 0x11
    ++ [0, 0, 2, 0x13, 0x01, 1, 0, 0, 10, 0, 0, 0, 6, 0, 4, 0, 0, 1, 0x61]

theorem sample_hello_is_client_hello : IsClientHello sample_hello "a" :=
  ⟨by decide +kernel, by decide +kernel⟩

/-- Two overlapping frames, the later part first. -/
def overlapping_packets : List (List (List UInt8)) :=
  [[[6, 20, 37] ++ sample_hello.drop 20, [0, 1, 6, 0, 25] ++ sample_hello.take 25]]

/-- The whole message, and then its first byte once more. -/
def repeated_packets : List (List (List UInt8)) :=
  [[[6, 0, 57] ++ sample_hello], [[6, 0, 1, 1]]]

end DaeNext.Sniffing
