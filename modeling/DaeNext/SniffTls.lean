/-
The server name of a ClientHello (`dae-sniffing/src/tls.rs`, `normalize.rs`, `error.rs`).

Bytes that the source reads by index are in range there; `byte` reads them with a default. The two
loops over the extensions and over the names of one extension advance by at least the header they
have read, so they are functions by recursion on what is left.
-/
import DaeNext.LibNet
import DaeNext.LibUtf8

set_option autoImplicit false

namespace DaeNext.Sniffing

inductive SniffingError where
  | NotApplicable
  | NeedMore
  | NotFound
  | DataTooLarge
  | Message (message : String)
deriving DecidableEq, Repr

def SniffingError.to_string : SniffingError → String
  | .NotApplicable => "sniffing error: not applicable"
  | .NeedMore => "sniffing error: need more"
  | .NotFound => "sniffing error: not found"
  | .DataTooLarge => "sniffing error: packet sniffing data too large"
  | .Message message => message

def byte (data : List UInt8) (i : Nat) : UInt8 := data.getD i 0

/-- `u16::from_be_bytes` of two bytes. -/
def be16 (data : List UInt8) (i : Nat) : Nat := Net.from_be_bytes [byte data i, byte data (i + 1)]

/-- `search[start..stop]`. -/
def slice (data : List UInt8) (start stop : Nat) : List UInt8 := (data.take stop).drop start

def CONTENT_TYPE_HANDSHAKE : UInt8 := 22
def HANDSHAKE_TYPE_HELLO : UInt8 := 1
def TLS_EXTENSION_SERVER_NAME : Nat := 0
def TLS_EXTENSION_SERVER_NAME_TYPE_HOST_NAME : UInt8 := 0
def VERSION_TLS_1_0 : List UInt8 := [0x03, 0x01]
def VERSION_TLS_1_2 : List UInt8 := [0x03, 0x03]

/-! ## Extensions -/

/-- The names of one extension, from `j` on; nothing when there is no host name among them. -/
def find_host_name (search : List UInt8) (next j : Nat) : Option (Except SniffingError String) :=
  if j + 3 ≤ next then
    let indicator_len := be16 search (j + 1)
    if byte search j = TLS_EXTENSION_SERVER_NAME_TYPE_HOST_NAME then
      if next < j + 3 + indicator_len then some (.error .NotApplicable)
      else
        match Text.from_utf8 (slice search (j + 3) (j + 3 + indicator_len)) with
        | .error _ => some (.error .NotApplicable)
        | .ok sni => some (.ok (Text.trim_end_matches '.' sni))
    else find_host_name search next (j + (3 + indicator_len))
  else none
termination_by next - j

def find_sni_extension_from (search : List UInt8) (i : Nat) : Except SniffingError String :=
  if search.length ≤ i + 4 then .error .NotFound
  else
    let ext_length := be16 search (i + 2)
    let next := i + 4 + ext_length
    if search.length < next then .error .NotApplicable
    else if be16 search i = TLS_EXTENSION_SERVER_NAME then
      if search.length < i + 6 then .error .NotApplicable
      else if ext_length < be16 search (i + 4) + 2 then .error .NotApplicable
      else
        match find_host_name search next (i + 6) with
        | some result => result
        | none => find_sni_extension_from search next
    else find_sni_extension_from search next
termination_by search.length - i

def find_sni_extension (search : List UInt8) : Except SniffingError String :=
  find_sni_extension_from search 0

/-! ## The ClientHello -/

def handshake_length (search : List UInt8) : Nat :=
  Net.from_be_bytes [byte search 1, byte search 2, byte search 3]

def extract_sni_from_tls (search : List UInt8) : Except SniffingError String :=
  let boundary := 39
  if search.length < boundary then .error .NotApplicable
  else if byte search 0 ≠ HANDSHAKE_TYPE_HELLO then .error .NotApplicable
  else if handshake_length search + 4 < search.length then .error .NotApplicable
  else if slice search 4 6 ≠ VERSION_TLS_1_2 then .error .NotApplicable
  else
    let session_id_length := (byte search (boundary - 1)).toNat
    let boundary := boundary + (session_id_length + 2)
    if search.length < boundary then .error .NotApplicable
    else
      let cipher_suite_length := be16 search (boundary - 2)
      let boundary := boundary + (cipher_suite_length + 1)
      if search.length < boundary then .error .NotApplicable
      else
        let compress_methods_length := (byte search (boundary - 1)).toNat
        let boundary := boundary + (compress_methods_length + 2)
        if search.length < boundary then .error .NotApplicable
        else
          let extensions_length := be16 search (boundary - 2)
          let boundary := boundary + extensions_length
          if search.length < boundary then .error .NotApplicable
          else find_sni_extension (slice search (boundary - extensions_length) boundary)

def sniff_tls_client_hello_sni (search : List UInt8) : Except SniffingError String :=
  if search.length < 4 then .error .NeedMore
  else if byte search 0 ≠ HANDSHAKE_TYPE_HELLO then .error .NotApplicable
  else if search.length < handshake_length search + 4 then .error .NeedMore
  else extract_sni_from_tls (search.take (handshake_length search + 4))

def sniff_tls_sni (data : List UInt8) : Except SniffingError String :=
  if data.length < 5 then .error .NotApplicable
  else if byte data 0 ≠ CONTENT_TYPE_HANDSHAKE ∨
      (slice data 1 3 ≠ VERSION_TLS_1_0 ∧ slice data 1 3 ≠ VERSION_TLS_1_2) then
    .error .NotApplicable
  else
    let length := be16 data 3
    let search := data.drop 5
    if search.length < length then .error .NeedMore
    else sniff_tls_client_hello_sni (search.take length)

/-! ## Normal form of a name -/

def split_host_port (host : String) : Option String :=
  if host.toList.count ':' ≠ 1 then none
  else
    match Text.rsplit_once ':' host with
    | none => none
    | some (domain, port) =>
      if domain.isEmpty || port.isEmpty || !port.toList.all Char.isDigit then none else some domain

def strip_brackets (host : String) : Option String :=
  if host.toList.head? = some '[' ∧ host.toList.getLast? = some ']' then
    some (String.ofList (host.toList.tail.dropLast))
  else none

def normalize_domain (input : String) : String :=
  let host := Text.trim input
  let host := (strip_brackets host <|> split_host_port host).getD host
  let host := if Text.ends_with_char '.' host then String.ofList host.toList.dropLast else host
  if host.toList.any Char.isUpper then Text.to_ascii_lowercase host else host

example : normalize_domain " Example.COM:443 " = "example.com" := by decide +kernel

end DaeNext.Sniffing
