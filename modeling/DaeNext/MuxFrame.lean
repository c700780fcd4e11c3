/-
Mux frames and their three readers.

A frame is its metadata behind their length and, where its option says so, a payload behind its
length. `MuxFrameDecoder` takes frames off the bytes received so far, `read_mux_frame` reads them
from a stream, and `parse_xudp_response_frame` wants their payloads only. They do not agree when
there is a payload: for the first where the option has the data bit, for the second where it is the
data bit alone, and the last never looks at it.
-/
import DaeNext.LibFallible
import DaeNext.Socks5Address

set_option autoImplicit false

namespace DaeNext.Mux

open List

/-! ## The code -/

def SESSION_STATUS_NEW : UInt8 := 0x01
def SESSION_STATUS_KEEP : UInt8 := 0x02
def SESSION_STATUS_END : UInt8 := 0x03
def SESSION_STATUS_KEEPALIVE : UInt8 := 0x04
def OPTION_NONE : UInt8 := 0x00
def OPTION_DATA : UInt8 := 0x01
def OPTION_ERROR : UInt8 := 0x02
def MUX_MAX_METADATA_BYTES : Nat := 512

structure MuxFrame where
  id : UInt8 × UInt8
  status : UInt8
  option : UInt8
  metadata : List UInt8
  payload : List UInt8
deriving DecidableEq

/-- `u16::from_be_bytes`. -/
def from_u16_bytes (high low : UInt8) : Nat := high.toNat * 256 + low.toNat

def length_prefixed (metadata : List UInt8) : List UInt8 :=
  UInt8.ofNat (metadata.length / 256) :: UInt8.ofNat metadata.length :: metadata

/-- The bytes behind a length and what follows them, once they are all there. -/
def field : List UInt8 → Option (List UInt8 × List UInt8)
  | high :: low :: bytes =>
    let len := from_u16_bytes high low
    if bytes.length < len then none else some (bytes.take len, bytes.drop len)
  | _ => none

def metadata_field : List UInt8 → Except OutboundError (Option (List UInt8 × List UInt8))
  | high :: low :: bytes =>
    if ¬(4 ≤ from_u16_bytes high low ∧ from_u16_bytes high low ≤ MUX_MAX_METADATA_BYTES) then
      .error (.BadSharedTransport "invalid mux metadata length")
    else .ok (field (high :: low :: bytes))
  | _ => .ok none

def payload_field (present : Bool) (bytes : List UInt8) : Option (List UInt8 × List UInt8) :=
  if present then field bytes else some ([], bytes)

def validate_mux_metadata (metadata : List UInt8) : Except OutboundError (UInt8 × UInt8) :=
  let status := metadata.getD 2 0
  let option := metadata.getD 3 0
  if status ∉ [SESSION_STATUS_NEW, SESSION_STATUS_KEEP, SESSION_STATUS_END, SESSION_STATUS_KEEPALIVE] then
    .error (.BadSharedTransport "invalid mux session status")
  else if option &&& ~~~(OPTION_DATA ||| OPTION_ERROR) ≠ 0 then
    .error (.BadSharedTransport "invalid mux frame option")
  else if status = SESSION_STATUS_NEW ∧ metadata.length < 8 then
    .error (.BadSharedTransport "incomplete mux new-session metadata")
  else .ok (status, option)

/-- The next frame of the bytes and what follows it, when it is all there. The readers differ in
which options have a payload. -/
def read_frame (has_payload : UInt8 → Bool) (bytes : List UInt8) :
    Except OutboundError (Option (MuxFrame × List UInt8)) :=
  match metadata_field bytes with
  | .error err => .error err
  | .ok none => .ok none
  | .ok (some (metadata, bytes)) =>
    (validate_mux_metadata metadata).map fun (status, option) =>
      (payload_field (has_payload option) bytes).map fun (payload, bytes) =>
        (⟨(metadata.getD 0 0, metadata.getD 1 0), status, option, metadata, payload⟩, bytes)

def carries_data (option : UInt8) : Bool := option &&& OPTION_DATA ≠ 0

/-- `MuxFrameDecoder::next_frame`: the frame and what is pending then. -/
def next_frame : List UInt8 → Except OutboundError (Option (MuxFrame × List UInt8)) :=
  read_frame carries_data

/-- One turn of the loop of `read_mux_frame`. -/
def read_turn : List UInt8 → Except OutboundError (Option (MuxFrame × List UInt8)) :=
  read_frame fun option => option = OPTION_DATA

def parse_xudp_response_frame (input : List UInt8) : Except String (Option (List UInt8 × Nat)) :=
  .ok ((field input).bind fun (metadata, bytes) =>
    (field bytes).map fun (payload, _) => (payload, 2 + metadata.length + 2 + payload.length))

variable {rest : List UInt8} {frame : MuxFrame}

section

variable {x bytes : List UInt8} {has_payload : UInt8 → Bool}

theorem field_lt (h : field bytes = some (x, rest)) : rest.length < bytes.length := by
  match bytes, h with
  | high :: low :: bytes, h =>
    rw [field] at h
    split_ifs at h
    cases h
    rw [length_drop, length_cons, length_cons]
    omega

theorem read_frame_some (h : read_frame has_payload bytes = .ok (some (frame, rest))) :
    ∃ behind, metadata_field bytes = .ok (some (frame.metadata, behind)) ∧
      validate_mux_metadata frame.metadata = .ok (frame.status, frame.option) ∧
      payload_field (has_payload frame.option) behind = some (frame.payload, rest) := by
  rw [read_frame] at h
  split at h
  · cases h
  · cases h
  · rename_i metadata behind hfield
    obtain ⟨found, hvalidate, hframe⟩ := Fallible.map_ok h
    obtain ⟨_, hpayload, heq⟩ := Option.map_eq_some_iff.mp hframe
    cases heq
    exact ⟨behind, hfield, hvalidate, hpayload⟩

theorem read_frame_lt (h : read_frame has_payload bytes = .ok (some (frame, rest))) :
    rest.length < bytes.length := by
  obtain ⟨behind, hfield, -, hpayload⟩ := read_frame_some h
  have hbehind : behind.length < bytes.length := by
    match bytes, hfield with
    | _ :: _ :: _, hfield =>
      rw [metadata_field] at hfield
      split_ifs at hfield
      exact field_lt (Except.ok.inj hfield)
  rw [payload_field] at hpayload
  split_ifs at hpayload
  · exact Nat.lt_trans (field_lt hpayload) hbehind
  · rwa [(Prod.mk.inj (Option.some.inj hpayload)).2] at hbehind

end

def read_mux_frame (stream : List UInt8) : Except OutboundError (MuxFrame × List UInt8) :=
  match _h : read_turn stream with
  | .error err => .error err
  | .ok none => .error (.BadSharedTransport "failed to fill whole buffer")
  | .ok (some (frame, stream)) =>
    if frame.status = SESSION_STATUS_KEEPALIVE then read_mux_frame stream else .ok (frame, stream)
termination_by stream.length
decreasing_by exact read_frame_lt ‹_›

/-- The frames a reader takes one after the other, each with the bytes behind it. -/
def take_frames (has_payload : UInt8 → Bool) (bytes : List UInt8) : List (MuxFrame × List UInt8) :=
  match _h : read_frame has_payload bytes with
  | .ok (some (frame, rest)) => (frame, rest) :: take_frames has_payload rest
  | _ => []
termination_by bytes.length
decreasing_by exact read_frame_lt ‹_›

/-- What the first calls of a reader give, each with the bytes behind it. -/
def calls_of {α : Type} (read : List UInt8 → Option (α × List UInt8)) :
    Nat → List UInt8 → List (α × List UInt8)
  | 0, _ => []
  | calls + 1, bytes => (read bytes).elim [] fun (x, rest) => (x, rest) :: calls_of read calls rest

/-- The stream goes on where a call left it. -/
def mux_frames : Nat → List UInt8 → List (MuxFrame × List UInt8) :=
  calls_of fun stream => (read_mux_frame stream).toOption

/-- The caller drops what was consumed. -/
def xudp_payloads : Nat → List UInt8 → List (List UInt8 × List UInt8) :=
  calls_of fun input => (parse_xudp_response_frame input).toOption.join.map
    fun (payload, consumed) => (payload, input.drop consumed)

theorem take_frames_eq (has_payload : UInt8 → Bool) (bytes : List UInt8) :
    take_frames has_payload bytes = match read_frame has_payload bytes with
      | .ok (some (frame, rest)) => (frame, rest) :: take_frames has_payload rest
      | _ => [] := by
  rw [take_frames]
  split <;> rename_i heq <;> simp [heq]

theorem take_frames_lt {has_payload : UInt8 → Bool} {bytes : List UInt8}
    (h : (frame, rest) ∈ take_frames has_payload bytes) : rest.length < bytes.length := by
  fun_induction take_frames has_payload bytes with
  | case1 bytes first behind hfirst ih =>
    have hbehind := read_frame_lt hfirst
    obtain heq | hmem := mem_cons.mp h
    · rwa [(Prod.mk.inj heq).2]
    · exact Nat.lt_trans (ih hmem) hbehind
  | case2 => cases h

/-! ## Two readers of a stream -/

def is_answer (x : MuxFrame × List UInt8) : Bool := x.1.status ≠ SESSION_STATUS_KEEPALIVE

theorem filter_take_frames (stream : List UInt8) :
    (take_frames (· = OPTION_DATA) stream).filter is_answer
      = (read_mux_frame stream).toOption.elim [] fun (frame, rest) =>
        (frame, rest) :: (take_frames (· = OPTION_DATA) rest).filter is_answer := by
  fun_induction read_mux_frame stream with
  | case1 stream err h | case2 stream h =>
    rw [take_frames_eq, ← read_turn, h]
    rfl
  | case3 stream frame rest h hkeep ih =>
    rw [take_frames_eq, ← read_turn, h]
    exact (filter_cons_of_neg (by simpa [is_answer] using hkeep)).trans ih
  | case4 stream frame rest h hkeep =>
    rw [take_frames_eq, ← read_turn, h]
    exact filter_cons_of_pos (by simpa [is_answer] using hkeep)

theorem mux_frames_eq (calls : Nat) (stream : List UInt8) :
    mux_frames calls stream = ((take_frames (· = OPTION_DATA) stream).filter is_answer).take calls := by
  induction calls generalizing stream with
  | zero => rfl
  | succ calls ih =>
    rw [mux_frames, calls_of, filter_take_frames]
    cases (read_mux_frame stream).toOption with
    | none => rfl
    | some found => exact congrArg _ (ih found.2)

/-- Some frame of the stream has both option bits. -/
inductive BothBits : List UInt8 → Prop
  | here {stream metadata behind : List UInt8} {status : UInt8}
    (hmetadata : metadata_field stream = .ok (some (metadata, behind)))
    (hvalid : validate_mux_metadata metadata = .ok (status, OPTION_DATA ||| OPTION_ERROR)) :
    BothBits stream
  | later {stream metadata behind payload rest : List UInt8} {status option : UInt8}
    (hmetadata : metadata_field stream = .ok (some (metadata, behind)))
    (hvalid : validate_mux_metadata metadata = .ok (status, option))
    (hpayload : payload_field (carries_data option) behind = some (payload, rest))
    (hrest : BothBits rest) : BothBits stream

section

variable {stream metadata behind : List UInt8} {status option : UInt8}

theorem carries_data_eq (hvalid : validate_mux_metadata metadata = .ok (status, option))
    (hbits : option ≠ OPTION_DATA ||| OPTION_ERROR) : decide (option = OPTION_DATA) = carries_data option := by
  rw [validate_mux_metadata] at hvalid
  split_ifs at hvalid with hstatus hoption
  cases hvalid
  revert hoption hbits
  generalize metadata.getD 3 0 = option
  obtain ⟨bits⟩ := option
  revert bits
  decide

theorem read_frame_eq (hmetadata : metadata_field stream = .ok (some (metadata, behind)))
    (hvalid : validate_mux_metadata metadata = .ok (status, option)) (has_payload : UInt8 → Bool) :
    read_frame has_payload stream = .ok ((payload_field (has_payload option) behind).map
      fun (payload, bytes) =>
        (⟨(metadata.getD 0 0, metadata.getD 1 0), status, option, metadata, payload⟩, bytes)) := by
  rw [read_frame, hmetadata]
  dsimp only
  rw [hvalid]
  rfl

theorem read_turn_eq (h : ¬BothBits stream) : read_turn stream = next_frame stream := by
  rw [read_turn, next_frame, read_frame, read_frame]
  split
  · rfl
  · rfl
  · rename_i metadata behind hmetadata
    cases hvalid : validate_mux_metadata metadata with
    | error err => rfl
    | ok found =>
      obtain ⟨status, option⟩ := found
      dsimp only [Except.map]
      rw [carries_data_eq hvalid fun hbits => h (.here hmetadata (hbits ▸ hvalid))]

theorem take_frames_eq_of_not_bothBits (h : ¬BothBits stream) :
    take_frames (· = OPTION_DATA) stream = take_frames carries_data stream := by
  fun_induction take_frames carries_data stream with
  | case1 stream frame rest hframe ih =>
    obtain ⟨behind, hmetadata, hvalid, hpayload⟩ := read_frame_some hframe
    rw [take_frames_eq, ← read_turn, read_turn_eq h, next_frame, hframe]
    exact congrArg _ (ih fun hrest => h (.later hmetadata hvalid hpayload hrest))
  | case2 stream hnone =>
    rw [take_frames_eq, ← read_turn, read_turn_eq h, next_frame]
    split
    · rename_i hframe
      exact absurd hframe (hnone _ _)
    · rfl

theorem take_frames_ne_of_bits (hmetadata : metadata_field stream = .ok (some (metadata, behind)))
    (hvalid : validate_mux_metadata metadata = .ok (status, OPTION_DATA ||| OPTION_ERROR)) :
    take_frames (· = OPTION_DATA) stream ≠ take_frames carries_data stream := by
  have hboth : payload_field (carries_data (OPTION_DATA ||| OPTION_ERROR)) behind = field behind := rfl
  rw [take_frames_eq, read_frame_eq hmetadata hvalid, take_frames_eq carries_data,
    read_frame_eq hmetadata hvalid, hboth]
  cases hpayload : field behind with
  | none => exact cons_ne_nil _ _
  | some found =>
    intro heq
    have hrest : behind = found.2 := congrArg Prod.snd (cons.inj heq).1
    exact absurd (field_lt hpayload) (hrest ▸ Nat.lt_irrefl _)

theorem BothBits.take_frames_ne (h : BothBits stream) :
    take_frames (· = OPTION_DATA) stream ≠ take_frames carries_data stream := by
  induction h with
  | here hmetadata hvalid => exact take_frames_ne_of_bits hmetadata hvalid
  | @later stream metadata behind payload rest status option hmetadata hvalid hpayload hrest ih =>
    by_cases hbits : option = OPTION_DATA ||| OPTION_ERROR
    · exact take_frames_ne_of_bits hmetadata (hbits ▸ hvalid)
    · rw [take_frames_eq, read_frame_eq hmetadata hvalid, carries_data_eq hvalid hbits, hpayload,
        take_frames_eq carries_data, read_frame_eq hmetadata hvalid, hpayload]
      exact fun heq => ih (cons.inj heq).2

/-- They take the same frames off a stream just if none of these has both option bits. -/
theorem mux_readers_agree_iff (stream : List UInt8) :
    (take_frames (· = OPTION_DATA) stream = take_frames carries_data stream ∧
      ∀ calls, mux_frames calls stream = ((take_frames carries_data stream).filter is_answer).take calls) ↔
      ¬BothBits stream := by
  constructor
  · exact fun ⟨heq, _⟩ hbits => hbits.take_frames_ne heq
  · intro h
    have heq := take_frames_eq_of_not_bothBits h
    exact ⟨heq, fun calls => heq ▸ mux_frames_eq calls stream⟩

/-- The payload is left on the stream. -/
theorem mux_payload_left_behind :
    let stream : List UInt8 := [0, 4, 0, 7, 2, 3, 0, 1, 9]
    mux_frames 1 stream = [(⟨(0, 7), SESSION_STATUS_KEEP, 3, [0, 7, 2, 3], []⟩, [0, 1, 9])] ∧
      (take_frames carries_data stream).filter is_answer
        = [(⟨(0, 7), SESSION_STATUS_KEEP, 3, [0, 7, 2, 3], [9]⟩, [])] := by
  decide +kernel

end

/-! ## Frames on the wire -/

/-- The payload on the wire. -/
def payload_wire (frame : MuxFrame) : List UInt8 :=
  if carries_data frame.option then length_prefixed frame.payload else []

def wire (frame : MuxFrame) : List UInt8 := length_prefixed frame.metadata ++ payload_wire frame

/-- What the lengths can say and the metadata allow. -/
structure Valid (frame : MuxFrame) : Prop where
  metadata_len : 4 ≤ frame.metadata.length ∧ frame.metadata.length ≤ MUX_MAX_METADATA_BYTES
  metadata : validate_mux_metadata frame.metadata = .ok (frame.status, frame.option)
  id : frame.id = (frame.metadata.getD 0 0, frame.metadata.getD 1 0)
  payload_len : frame.payload.length < 65536
  payload : carries_data frame.option = false → frame.payload = []

/-- What the decoder takes off the frames. -/
def decoded (frames : List MuxFrame) : List (MuxFrame × List UInt8) :=
  take_frames carries_data (frames.flatMap wire)

variable {x y : List UInt8}

theorem from_u16_bytes_ofNat {n : Nat} (h : n < 65536) :
    from_u16_bytes (UInt8.ofNat (n / 256)) (UInt8.ofNat n) = n := by
  rw [from_u16_bytes, UInt8.toNat_ofNat', UInt8.toNat_ofNat']
  omega

theorem field_length_prefixed (h : x.length < 65536) : field (length_prefixed x ++ rest) = some (x, rest) := by
  rw [length_prefixed, cons_append, cons_append, field, from_u16_bytes_ofNat h,
    if_neg (by rw [length_append]; omega), take_left, drop_left]

variable {frames : List MuxFrame}

theorem Valid.metadata_fits (h : Valid frame) : frame.metadata.length < 65536 :=
  Nat.lt_of_le_of_lt h.metadata_len.2 (by decide)

theorem next_frame_wire (h : Valid frame) : next_frame (wire frame ++ rest) = .ok (some (frame, rest)) := by
  have hfield : field (length_prefixed frame.metadata ++ (payload_wire frame ++ rest)) = some _ :=
    field_length_prefixed h.metadata_fits
  have hmetadata : metadata_field (wire frame ++ rest) = .ok (some (frame.metadata, payload_wire frame ++ rest)) := by
    rw [wire, append_assoc]
    rw [length_prefixed, cons_append, cons_append] at hfield ⊢
    rw [metadata_field, from_u16_bytes_ofNat h.metadata_fits, if_neg (not_not.mpr h.metadata_len), hfield]
  have hpayload : payload_field (carries_data frame.option) (payload_wire frame ++ rest)
      = some (frame.payload, rest) := by
    rw [payload_field, payload_wire]
    split_ifs with hdata
    · exact field_length_prefixed h.payload_len
    · rw [h.payload (eq_false_of_ne_true hdata), nil_append]
  rw [next_frame, read_frame_eq hmetadata h.metadata, hpayload, Option.map_some, ← h.id]

theorem decoded_nil : decoded [] = [] := by
  rw [decoded, take_frames_eq]
  rfl

theorem decoded_cons (h : Valid frame) :
    decoded (frame :: frames) = (frame, frames.flatMap wire) :: decoded frames := by
  rw [decoded, flatMap_cons, take_frames_eq, ← next_frame, next_frame_wire h]
  rfl

theorem xudp_payloads_succ (hx : x.length < 65536) (hy : y.length < 65536) (calls : Nat) :
    xudp_payloads (calls + 1) (length_prefixed x ++ (length_prefixed y ++ rest))
      = (y, rest) :: xudp_payloads calls rest := by
  have hdrop : (length_prefixed x ++ (length_prefixed y ++ rest)).drop (2 + x.length + 2 + y.length)
      = rest := by
    rw [← append_assoc]
    apply drop_left'
    simp only [length_prefixed, length_append, length_cons]
    omega
  rw [xudp_payloads, calls_of, parse_xudp_response_frame, field_length_prefixed hx, Option.bind_some]
  dsimp only
  rw [field_length_prefixed hy]
  dsimp only [Option.map_some, Except.toOption, Option.join_some, Option.elim_some]
  rw [hdrop]

/-- What the calls should give. -/
def payloads_of (frames : List MuxFrame) : List (List UInt8 × List UInt8) :=
  ((decoded frames).filter fun x => carries_data x.1.option).map fun x => (x.1.payload, x.2)

/-- The calls give the payloads, where the decoder has them, just if every frame but the last carries
data. -/
theorem xudp_responses_in_frame_iff (frames : List MuxFrame) (h : ∀ frame ∈ frames, Valid frame) :
    (decoded frames).map Prod.fst = frames ∧
    ((∀ calls, xudp_payloads calls (frames.flatMap wire) = (payloads_of frames).take calls) ↔
      ∀ frame ∈ frames.dropLast, carries_data frame.option) := by
  induction frames with
  | nil =>
    rw [payloads_of, decoded_nil]
    refine ⟨rfl, fun _ => nofun, fun _ calls => ?_⟩
    cases calls with
    | zero | succ calls => rfl
  | cons frame frames ih =>
    obtain ⟨hframe, hframes⟩ := forall_mem_cons.mp h
    obtain ⟨hdecoded, ih⟩ := ih hframes
    rw [payloads_of, decoded_cons hframe, map_cons, hdecoded, flatMap_cons, wire, append_assoc]
    refine ⟨rfl, ?_⟩
    cases hdata : carries_data frame.option with
    | true =>
      have hlast : (∀ f ∈ (frame :: frames).dropLast, carries_data f.option) ↔
          ∀ f ∈ frames.dropLast, carries_data f.option := by
        cases frames with
        | nil => rfl
        | cons next frames => rw [dropLast_cons_cons, forall_mem_cons, and_iff_right hdata]
      rw [hlast, ← ih, filter_cons_of_pos (by exact hdata), map_cons, ← payloads_of,
        payload_wire, if_pos hdata]
      constructor
      · intro hall calls
        have hcalls := hall (calls + 1)
        rw [xudp_payloads_succ hframe.metadata_fits hframe.payload_len] at hcalls
        exact (cons.inj hcalls).2
      · intro hall calls
        cases calls with
        | zero => rfl
        | succ calls =>
          rw [xudp_payloads_succ hframe.metadata_fits hframe.payload_len, hall, take_succ_cons]
    | false =>
      have hdata := ne_true_of_eq_false hdata
      rw [filter_cons_of_neg (by exact hdata), payload_wire, if_neg hdata, nil_append]
      cases frames with
      | nil =>
        refine ⟨fun _ => nofun, fun _ calls => ?_⟩
        cases calls with
        | zero => rfl
        | succ calls =>
          rw [decoded_nil, xudp_payloads, calls_of, parse_xudp_response_frame, flatMap_nil,
            field_length_prefixed hframe.metadata_fits]
          rfl
      | cons next frames =>
        rw [dropLast_cons_cons, forall_mem_cons]
        refine ⟨fun hall => ?_, fun hlast => absurd hlast.1 hdata⟩
        -- the metadata of the next frame come out, in front of all the payloads there are
        obtain ⟨hnext, hrest⟩ := forall_mem_cons.mp hframes
        have hfirst := hall 1
        rw [flatMap_cons, wire, append_assoc,
          xudp_payloads_succ hframe.metadata_fits hnext.metadata_fits] at hfirst
        have hmem := mem_of_mem_take (hfirst ▸ mem_cons_self)
        obtain ⟨⟨found, behind⟩, hfound, heq⟩ := mem_map.mp hmem
        obtain ⟨hdecoded, hcarries⟩ := mem_filter.mp hfound
        obtain ⟨-, rfl⟩ := Prod.mk.inj heq
        rw [decoded_cons hnext, mem_cons] at hdecoded
        obtain heq | hdecoded := hdecoded
        · obtain ⟨rfl, hsame⟩ := Prod.mk.inj heq
          have hlen := congrArg List.length hsame
          rw [payload_wire, if_pos hcarries, length_append, length_prefixed] at hlen
          simp only [length_cons] at hlen
          omega
        · have hlt := take_frames_lt hdecoded
          rw [length_append] at hlt
          omega

/-- The end of one session before the data of another. -/
theorem xudp_metadata_as_payload :
    let frames : List MuxFrame := [⟨(0, 7), SESSION_STATUS_END, OPTION_NONE, [0, 7, 3, 0], []⟩,
      ⟨(0, 8), SESSION_STATUS_KEEP, OPTION_DATA, [0, 8, 2, 1], [9]⟩]
    xudp_payloads 2 (frames.flatMap wire) = [([0, 8, 2, 1], [0, 1, 9])] ∧
      payloads_of frames = [([9], [])] := by
  decide +kernel

theorem xudp_responses_in_frame_iff_data :
    let frames : List MuxFrame := [⟨(0, 8), SESSION_STATUS_KEEP, OPTION_DATA, [0, 8, 2, 1], [9]⟩]
    (decoded frames).map Prod.fst = frames ∧
    ((∀ calls, xudp_payloads calls (frames.flatMap wire) = (payloads_of frames).take calls) ↔
      ∀ frame ∈ frames.dropLast, carries_data frame.option) :=
  xudp_responses_in_frame_iff _ (List.forall_mem_singleton.mpr ⟨by decide, rfl, rfl, by decide, by decide⟩)

end DaeNext.Mux
