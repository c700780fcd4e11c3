/-
The domain of the first bytes of a TCP connection (`dae-sniffing/src/lib.rs`, `http.rs`,
`dae-resident-tcp/src/direct_sniffing.rs`).

A TLS record is read when all of it is there, so more bytes change nothing. The Host line of an
HTTP request is read as far as it is there: its end may be missing. `Settled` says that a record or
a whole line gave the domain, and that is exactly when no further bytes can change it.
-/
import DaeNext.SniffTls

set_option autoImplicit false

namespace DaeNext.Sniffing

open List

/-! ## HTTP -/

def is_printable_ascii (ch : UInt8) : Bool := 0x20 ≤ ch && ch ≤ 0x7e

def is_valid_http_method (method : String) : Bool :=
  ["GET", "POST", "PUT", "PATCH", "DELETE", "COPY", "HEAD", "OPTIONS", "LINK", "UNLINK", "PURGE",
    "LOCK", "UNLOCK", "PROPFIND", "CONNECT", "TRACE"].contains method

/-- The first twelve bytes have a method and a space. -/
def is_request (data : List UInt8) : Bool :=
  let search := data.take 12
  data.head?.map is_printable_ascii == some true && search.contains 0x20 &&
    match Text.from_utf8 (search.takeWhile (· != 0x20)) with
    | .error _ => false
    | .ok method => is_valid_http_method method

def strip_cr (line : List UInt8) : List UInt8 :=
  if line.getLast? = some 0x0d then line.dropLast else line

/-- One line: an empty one ends the search, and only a Host line has a result. -/
def read_header (line : List UInt8) : Except SniffingError (Option String) :=
  let line := strip_cr line
  if line.isEmpty then .error .NotFound
  else
    match line.dropWhile (· != 0x3a) with
    | [] => .ok none
    | _ :: value =>
      if Text.eq_ignore_ascii_case (line.takeWhile (· != 0x3a)) [0x68, 0x6f, 0x73, 0x74] then
        match Text.from_utf8 value with
        | .error _ => .error .NotFound
        | .ok host => .ok (some host)
      else .ok none

/-- The loop over `data.split(|ch| *ch == b'\n')`. -/
def host_of_lines (data : List UInt8) : Except SniffingError String :=
  match read_header (data.takeWhile (· != 0x0a)) with
  | .error err => .error err
  | .ok (some host) => .ok host
  | .ok none =>
    match _h : data.dropWhile (· != 0x0a) with
    | [] => .error .NotFound
    | _ :: rest => host_of_lines rest
termination_by data.length
decreasing_by
  have hle := (List.dropWhile_suffix (l := data) (· != 0x0a)).length_le
  rw [_h, List.length_cons] at hle
  omega

def sniff_http_host (data : List UInt8) : Except SniffingError String :=
  if is_request data then host_of_lines data else .error .NotApplicable

/-! ## TLS, then HTTP -/

def sniff_tcp (data : List UInt8) : Except SniffingError String :=
  match sniff_tls_sni data with
  | .ok domain => .ok (normalize_domain domain)
  | .error .NotApplicable => (sniff_http_host data).map normalize_domain
  | .error .NeedMore => .error (.Message
      "sniffing error: need more: sniffing error: not applicable: context deadline exceeded")
  | .error err => .error err

/-! ## The first reads of a connection -/

def TCP_SNIFF_BUFFER_LIMIT : Nat := 64 * 1024

structure TcpSniffReport where
  payload : List UInt8
  domain : String
  error : Option String
deriving DecidableEq, Repr

/-- What a read of at most 4096 bytes gives; no bytes is the end of the stream. -/
inductive Read where
  | Data (bytes : List UInt8)
  | Failed (err : String)
  | Timeout
deriving DecidableEq, Repr

def sniff_needs_more (err : SniffingError) : Bool :=
  err == .NeedMore || Text.contains "need more" err.to_string

def sniff_loop (payload : List UInt8) (last_error : Option String) :
    List Read → Except String TcpSniffReport
  | [] | .Timeout :: _ =>
    .ok { payload, domain := "", error := last_error <|> some "sniffing timeout" }
  | .Failed err :: _ => .error s!"read inbound TCP for async sniffing: {err}"
  | .Data bytes :: reads =>
    if bytes = [] then .ok { payload, domain := "", error := last_error }
    else if TCP_SNIFF_BUFFER_LIMIT < (payload ++ bytes).length then
      .ok { payload := payload ++ bytes, domain := ""
            error := some
              s!"sniffing skipped after buffered payload exceeded {TCP_SNIFF_BUFFER_LIMIT} bytes" }
    else
      match sniff_tcp (payload ++ bytes) with
      | .ok domain => .ok { payload := payload ++ bytes, domain, error := none }
      | .error err =>
        if sniff_needs_more err then sniff_loop (payload ++ bytes) (some err.to_string) reads
        else .ok { payload := payload ++ bytes, domain := "", error := some err.to_string }

/-- The reads are those until the deadline. -/
def sniff_initial_tcp_payload_async (timeout_is_zero : Bool) (reads : List Read) :
    Except String TcpSniffReport :=
  if timeout_is_zero then .ok { payload := [], domain := "", error := none }
  else sniff_loop [] none reads

def bytes_of (reads : List Read) : List UInt8 :=
  reads.flatMap fun read => match read with | .Data bytes => bytes | _ => []

/-- The domain came from a record, or from a line whose end is there. -/
def Settled (data : List UInt8) : Prop :=
  data.head? = some CONTENT_TYPE_HANDSHAKE ∨
  ∃ before after, data = before ++ 0x0a :: after ∧ ∃ host, host_of_lines before = .ok host

variable {head : List UInt8} (tail : List UInt8)

/-! ## More bytes after a record -/

theorem byte_append {i : Nat} (h : i < head.length) : byte (head ++ tail) i = byte head i := by
  rw [byte, byte, getD_eq_getElem?_getD, getElem?_append_left h, getD_eq_getElem?_getD]

theorem sniff_tls_sni_append {name : String} (h : sniff_tls_sni head = .ok name) :
    sniff_tls_sni (head ++ tail) = .ok name := by
  unfold sniff_tls_sni at h ⊢
  dsimp only at h ⊢
  split_ifs at h with hshort hheader hmore
  have hslice : slice (head ++ tail) 1 3 = slice head 1 3 := by
    rw [slice, slice, take_append_of_le_length (by omega)]
  have hlength : be16 (head ++ tail) 3 = be16 head 3 := by
    rw [be16, be16, byte_append tail (by omega), byte_append tail (by omega)]
  have hdrop : (head ++ tail).drop 5 = head.drop 5 ++ tail := drop_append_of_le_length (by omega)
  rw [if_neg (by rw [length_append]; omega), byte_append tail (by omega), hslice, if_neg hheader]
  rw [hlength, hdrop, if_neg (by rw [length_append]; omega), take_append_of_le_length (by omega)]
  exact h

theorem sniff_tls_sni_of_head (h : head.head? ≠ some CONTENT_TYPE_HANDSHAKE) :
    sniff_tls_sni head = .error .NotApplicable := by
  rw [sniff_tls_sni]
  cases head with
  | nil => rfl
  | cons b rest =>
    have hbyte : byte (b :: rest) 0 ≠ CONTENT_TYPE_HANDSHAKE := fun heq => h (congrArg some heq)
    rw [if_pos (Or.inl hbyte), ite_self]

/-! ## More bytes after a line -/

variable {host : String}

theorem host_of_lines_last {data : List UInt8} (h : 0x0a ∉ data) :
    host_of_lines data = .ok host ↔ read_header data = .ok (some host) := by
  have hall : ∀ b ∈ data, (b != 0x0a) = true := fun b hb => bne_iff_ne.mpr fun heq => h (heq ▸ hb)
  rw [host_of_lines, List.takeWhile_eq_self_iff.mpr hall]
  rcases read_header data with err | (_ | found)
  · simp
  · dsimp only
    split
    · simp
    · rename_i hdrop
      rw [List.dropWhile_eq_nil_iff.mpr hall] at hdrop
      cases hdrop
  · simp

theorem host_of_lines_line {line : List UInt8} (h : 0x0a ∉ line) (rest : List UInt8) :
    host_of_lines (line ++ 0x0a :: rest) = .ok host ↔ read_header line = .ok (some host) ∨
      read_header line = .ok none ∧ host_of_lines rest = .ok host := by
  have hall : ∀ b ∈ line, (b != 0x0a) = true := fun b hb => bne_iff_ne.mpr fun heq => h (heq ▸ hb)
  have hdrop : (line ++ 0x0a :: rest).dropWhile (· != 0x0a) = 0x0a :: rest := by
    rw [dropWhile_append_of_pos hall]
    rfl
  have htake : (line ++ 0x0a :: rest).takeWhile (· != 0x0a) = line := by
    rw [takeWhile_append_of_pos hall]
    exact append_nil line
  rw [host_of_lines, htake]
  rcases read_header line with err | (_ | found)
  · simp
  · dsimp only
    split
    · rename_i hnil
      rw [hdrop] at hnil
      cases hnil
    · rename_i hcons
      rw [hdrop] at hcons
      cases hcons
      simp
  · simp

theorem line_cases (data : List UInt8) :
    0x0a ∉ data ∨ ∃ line rest, data = line ++ 0x0a :: rest ∧ 0x0a ∉ line := by
  by_cases h : 0x0a ∈ data
  · obtain ⟨line, rest, heq, hnot⟩ := eq_append_cons_of_mem h
    exact .inr ⟨line, rest, heq, hnot⟩
  · exact .inl h

theorem host_of_lines_append {before : List UInt8}
    (h : host_of_lines before = .ok host) (after : List UInt8) :
    host_of_lines (before ++ 0x0a :: after) = .ok host := by
  induction hn : before.length using Nat.strongRecOn generalizing before with
  | ind n ih =>
    obtain hline | ⟨line, rest, rfl, hline⟩ := line_cases before
    · exact (host_of_lines_line hline after).mpr (.inl ((host_of_lines_last hline).mp h))
    · rw [append_assoc, cons_append, host_of_lines_line hline]
      obtain hfound | ⟨hnone, h⟩ := (host_of_lines_line hline rest).mp h
      · exact .inl hfound
      · refine .inr ⟨hnone, ih rest.length ?_ h rfl⟩
        rw [← hn, length_append, length_cons]
        omega

/-- A byte that no text has spoils a Host line that goes on. -/
theorem read_header_append {line : List UInt8}
    (h : read_header line = .ok (some host)) : read_header (line ++ [0xff]) = .error .NotFound := by
  have hstrip : strip_cr (line ++ [0xff]) = line ++ [0xff] := by
    rw [strip_cr, getLast?_append]
    rfl
  -- the line is what was read, with a carriage return or without
  obtain ⟨extra, hline⟩ : ∃ extra, line = strip_cr line ++ extra := by
    rw [strip_cr]
    split_ifs with hcr
    · exact ⟨[0x0d], (dropLast_append_getLast? _ hcr).symm⟩
    · exact ⟨[], (append_nil _).symm⟩
  rw [read_header] at h
  split_ifs at h with hempty hname
  · cases hdrop : (strip_cr line).dropWhile (· != 0x3a) with
    | nil =>
      rw [hdrop] at h
      cases h
    | cons colon value =>
      have hlong : (line ++ [0xff]).dropWhile (· != 0x3a) = colon :: (value ++ extra ++ [0xff]) := by
        rw [hline, append_assoc, dropWhile_append, hdrop, isEmpty_cons,
          if_neg Bool.false_ne_true, cons_append, append_assoc]
      have hsame : (line ++ [0xff]).takeWhile (· != 0x3a)
          = (strip_cr line).takeWhile (· != 0x3a) := by
        rw [hline, append_assoc, takeWhile_append, if_neg, ← hline]
        intro hall
        have hself := ( takeWhile_prefix (l := strip_cr line) (· != 0x3a)).eq_of_length hall
        rw [List.dropWhile_eq_nil_iff.mpr (List.takeWhile_eq_self_iff.mp hself)] at hdrop
        cases hdrop
      rw [read_header, hstrip, if_neg (by simp), hlong]
      dsimp only
      rw [hsame, if_pos hname]
      cases hutf8 : Text.from_utf8 (value ++ extra ++ [0xff]) with
      | error err => rfl
      | ok s =>
        exact absurd (mem_append_right _ (mem_singleton.mpr rfl))
          (Text.ff_not_mem_of_from_utf8 hutf8)
  · cases hdrop : (strip_cr line).dropWhile (· != 0x3a) with
    | nil | cons colon value =>
      rw [hdrop] at h
      cases h

theorem settled_or_spoiled (h : host_of_lines head = .ok host) :
    (∃ before after, head = before ++ 0x0a :: after ∧ ∃ found, host_of_lines before = .ok found) ∨
    ∀ found, host_of_lines (head ++ [0xff]) ≠ .ok found := by
  induction hn : head.length using Nat.strongRecOn generalizing head with
  | ind n ih =>
    obtain hline | ⟨line, rest, rfl, hline⟩ := line_cases head
    · have hlong : (0x0a : UInt8) ∉ head ++ [0xff] := by
        rw [mem_append, not_or]
        exact ⟨hline, by decide⟩
      right
      intro found hfound
      rw [host_of_lines_last hlong, read_header_append ((host_of_lines_last hline).mp h)] at hfound
      cases hfound
    · obtain hread | ⟨hread, h⟩ := (host_of_lines_line hline rest).mp h
      · exact .inl ⟨line, rest, rfl, host, (host_of_lines_last hline).mpr hread⟩
      · have hshort : rest.length < n := by
          rw [← hn, length_append, length_cons]
          omega
        obtain ⟨before, after, rfl, found, hfound⟩ | hspoiled := ih rest.length hshort h rfl
        · exact .inl ⟨line ++ 0x0a :: before, after, by simp, found,
            (host_of_lines_line hline before).mpr (.inr ⟨hread, hfound⟩)⟩
        · right
          intro found hfound
          rw [append_assoc, cons_append, host_of_lines_line hline, hread] at hfound
          obtain hfound | ⟨-, hfound⟩ := hfound
          · cases hfound
          · exact hspoiled found hfound

/-! ## More bytes after a request -/

theorem is_request_append (h : is_request head = true) : is_request (head ++ tail) = true := by
  unfold is_request at h ⊢
  rw [Bool.and_eq_true, Bool.and_eq_true] at h
  obtain ⟨⟨hprintable, hspace⟩, hmethod⟩ := h
  have hne : head ≠ [] := by
    rintro rfl
    cases hprintable
  have hmem : (0x20 : UInt8) ∈ head.take 12 := contains_iff_mem.mp hspace
  have htake : (head ++ tail).take 12 = head.take 12 ++ tail.take (12 - head.length) :=
    take_append
  have hword : ((head ++ tail).take 12).takeWhile (· != 0x20)
      = (head.take 12).takeWhile (· != 0x20) := by
    rw [htake, takeWhile_append, if_neg]
    intro hall
    have hself := List.takeWhile_eq_self_iff.mp
      (( takeWhile_prefix _).eq_of_length hall)
    exact absurd (hself 0x20 hmem) (by decide)
  dsimp only
  rw [head?_append_of_ne_nil _ hne, hword, htake, Bool.and_eq_true, Bool.and_eq_true]
  exact ⟨⟨hprintable, contains_iff_mem.mpr (mem_append_left _ hmem)⟩, hmethod⟩

theorem head_of_is_request (h : is_request head = true) : head.head? ≠ some CONTENT_TYPE_HANDSHAKE := by
  unfold is_request at h
  rw [Bool.and_eq_true, Bool.and_eq_true] at h
  intro heq
  rw [heq] at h
  exact absurd h.1.1 (by decide)

theorem sniff_tcp_of_request (h : is_request head = true) :
    sniff_tcp head = (host_of_lines head).map normalize_domain := by
  rw [sniff_tcp, sniff_tls_sni_of_head (head_of_is_request h)]
  rw [sniff_http_host, if_pos h]

variable {domain : String}

theorem sniff_tcp_cases (h : sniff_tcp head = .ok domain) :
    (∃ name, sniff_tls_sni head = .ok name ∧ domain = normalize_domain name) ∨
    is_request head = true ∧ ∃ host, host_of_lines head = .ok host ∧ domain = normalize_domain host := by
  unfold sniff_tcp at h
  cases htls : sniff_tls_sni head with
  | ok name =>
    rw [htls] at h
    exact .inl ⟨name, rfl, (Except.ok.inj h).symm⟩
  | error err =>
    rw [htls] at h
    cases err with
    | NotApplicable =>
      rw [sniff_http_host] at h
      split_ifs at h with hrequest
      · cases hhost : host_of_lines head with
        | error err =>
          rw [hhost] at h
          cases h
        | ok host =>
          rw [hhost] at h
          exact .inr ⟨hrequest, host, rfl, (Except.ok.inj h).symm⟩
      · cases h
    | _ => cases h

theorem head_of_sniff_tls_sni {name : String} (h : sniff_tls_sni head = .ok name) :
    head.head? = some CONTENT_TYPE_HANDSHAKE := by
  by_contra hne
  rw [sniff_tls_sni_of_head hne] at h
  cases h

theorem Settled.stable (hsettled : Settled head) (h : sniff_tcp head = .ok domain) :
    sniff_tcp (head ++ tail) = .ok domain := by
  obtain ⟨name, htls, heq⟩ | ⟨hrequest, host, hhost, heq⟩ := sniff_tcp_cases h
  · rw [heq, sniff_tcp, sniff_tls_sni_append tail htls]
  · obtain hrecord | ⟨before, after, rfl, found, hfound⟩ := hsettled
    · exact absurd hrecord (head_of_is_request hrequest)
    · rw [host_of_lines_append hfound] at hhost
      rw [sniff_tcp_of_request (is_request_append tail hrequest), append_assoc, cons_append,
        host_of_lines_append hfound, Except.ok.inj hhost, heq]
      rfl

theorem settled_of_stable (h : sniff_tcp head = .ok domain)
    (hstable : ∀ tail, sniff_tcp (head ++ tail) = .ok domain) : Settled head := by
  obtain ⟨name, htls, -⟩ | ⟨hrequest, host, hhost, -⟩ := sniff_tcp_cases h
  · exact .inl (head_of_sniff_tls_sni htls)
  · obtain hended | hspoiled := settled_or_spoiled hhost
    · exact .inr hended
    · have hlong := hstable [0xff]
      rw [sniff_tcp_of_request (is_request_append _ hrequest)] at hlong
      cases hhost' : host_of_lines (head ++ [0xff]) with
      | error err =>
        rw [hhost'] at hlong
        cases hlong
      | ok found => exact absurd hhost' (hspoiled found)

/-! ## Runs -/

theorem sniff_loop_domain {payload : List UInt8} {last_error : Option String} {reads : List Read}
    {report : TcpSniffReport} (h : sniff_loop payload last_error reads = .ok report)
    (hdomain : report.domain ≠ "") :
    sniff_tcp report.payload = .ok report.domain ∧ report.payload <+: payload ++ bytes_of reads := by
  have hbytes : ∀ payload bytes reads, payload ++ bytes_of (.Data bytes :: reads)
      = (payload ++ bytes) ++ bytes_of reads := by
    intro payload bytes reads
    rw [bytes_of, flatMap_cons, append_assoc]
    rfl
  revert h
  fun_induction sniff_loop payload last_error reads with
  | case3 => intro h; cases h
  | case6 payload _ bytes reads _ _ domain hsniff =>
    rintro ⟨⟩
    rw [hbytes]
    exact ⟨hsniff, prefix_append _ _⟩
  | case7 payload _ bytes reads _ _ err _ _ ih =>
    rw [hbytes]
    exact ih
  | _ => rintro ⟨⟩; exact absurd rfl hdomain

theorem sniff_initial_domain {timeout_is_zero : Bool} {reads : List Read} {report : TcpSniffReport}
    (h : sniff_initial_tcp_payload_async timeout_is_zero reads = .ok report)
    (hdomain : report.domain ≠ "") :
    sniff_tcp report.payload = .ok report.domain ∧ report.payload <+: bytes_of reads := by
  rw [sniff_initial_tcp_payload_async] at h
  split_ifs at h with hzero
  · cases h
    exact absurd rfl hdomain
  · exact sniff_loop_domain h hdomain

theorem sniffed_domain_stable_iff {domain : String} (h : sniff_tcp head = .ok domain) :
    ((∀ tail, sniff_tcp (head ++ tail) = .ok domain) ↔ Settled head) ∧
    -- a connection that has the same bytes, cut in other places
    ∀ (stream : List UInt8) (timeout_is_zero : Bool) (reads : List Read) (report : TcpSniffReport),
      sniff_initial_tcp_payload_async timeout_is_zero reads = .ok report → report.domain ≠ "" →
      sniff_tcp report.payload = .ok report.domain ∧
      (head <+: stream → bytes_of reads <+: stream → Settled head → Settled report.payload →
        report.domain = domain) := by
  refine ⟨⟨settled_of_stable h, fun hsettled tail => hsettled.stable tail h⟩, ?_⟩
  intro stream timeout_is_zero reads report hrun hdomain
  obtain ⟨hsniff, hpre⟩ := sniff_initial_domain hrun hdomain
  refine ⟨hsniff, fun hhead hreads hsettled hreport => ?_⟩
  obtain ⟨tail, htail⟩ | ⟨tail, htail⟩ :=
    prefix_or_prefix_of_prefix hhead (hpre.trans hreads)
  · rw [← htail, hsettled.stable tail h] at hsniff
    exact (Except.ok.inj hsniff).symm
  · rw [← htail, hreport.stable tail hsniff] at h
    exact Except.ok.inj h

/-- A request of one Host line, cut before the last letter of the name. -/
def cut_request : List UInt8 := Text.as_bytes "GET / HTTP/1.1\r\nHost:a.co"

/-- The report of one read, of the whole line and some bytes after it. -/
def whole_line_report (after : List UInt8) : TcpSniffReport where
  payload := cut_request ++ Text.as_bytes "m\r" ++ 0x0a :: after
  domain := "a.com"
  error := none

theorem whole_host_line_settled :
    sniff_tcp ((whole_line_report []).payload ++ [0xff]) = .ok "a.com" ∧
    (whole_line_report [0x0d, 0x0a]).domain = "a.com" := by
  have hsettled : ∀ after, Settled (whole_line_report after).payload :=
    fun after => .inr ⟨_, after, rfl, "a.com", by decide +kernel⟩
  obtain ⟨hiff, hruns⟩ := @sniffed_domain_stable_iff (whole_line_report []).payload "a.com" (by decide +kernel)
  refine ⟨hiff.mpr (hsettled []) [0xff], ?_⟩
  exact (hruns (whole_line_report [0x0d, 0x0a]).payload false
    [.Data (whole_line_report [0x0d, 0x0a]).payload] (whole_line_report [0x0d, 0x0a]) (by decide +kernel)
    (by decide)).2 ⟨[0x0d, 0x0a], by decide +kernel⟩ ⟨[], by decide +kernel⟩ (hsettled [])
    (hsettled [0x0d, 0x0a])

theorem cut_host_line_contradicted :
    sniff_tcp cut_request = .ok "a.co" ∧
    sniff_tcp (cut_request ++ Text.as_bytes "m\r\n") = .ok "a.com" ∧
    sniff_initial_tcp_payload_async false [.Data cut_request, .Data (Text.as_bytes "m\r\n")]
      = .ok { payload := cut_request, domain := "a.co", error := none } ∧
    sniff_initial_tcp_payload_async false [.Data (cut_request ++ Text.as_bytes "m\r\n")]
      = .ok (whole_line_report []) := by
  decide +kernel

end DaeNext.Sniffing
