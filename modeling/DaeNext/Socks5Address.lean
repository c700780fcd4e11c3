/-
SOCKS5 addresses, as they stand in front of a payload: a type, an address and a port.

`decode` reads one from the start of its input and says how many octets it took; `authority` is
its text.
-/
import DaeNext.LibNet
import DaeNext.LibUtf8

set_option autoImplicit false

namespace DaeNext

/-- The errors of the outbound crates that are modelled, with their texts. -/
inductive OutboundError where
  | BadHysteria2 (value : String)
  | BadShadowsocks (value : String)
  | BadSharedTransport (value : String)
  | BadSocks5Address (value : String)
  | BadTuic (value : String)
  deriving DecidableEq, Repr

inductive AddressKind where
  | Ipv4
  | Domain
  | Ipv6
  deriving DecidableEq, Repr

def AddressKind.from_atyp (atyp : UInt8) : Except OutboundError AddressKind :=
  if atyp = 1 then .ok .Ipv4
  else if atyp = 3 then .ok .Domain
  else if atyp = 4 then .ok .Ipv6
  else .error (.BadSocks5Address s!"invalid address type: {atyp}")

inductive Socks5Address where
  | Ipv4 (addr : BitVec 32) (port : UInt16)
  | Domain (hostname : String) (port : UInt16)
  | Ipv6 (addr : BitVec 128) (port : UInt16)
  deriving DecidableEq, Repr

namespace Socks5Address

/-- `u16::from_be_bytes` of the two octets at `offset`. -/
def port_at (input : List UInt8) (offset : Nat) : UInt16 :=
  UInt16.ofNat (Net.from_be_bytes ((input.drop offset).take 2))

def decode (input : List UInt8) : Except OutboundError (Socks5Address × Nat) :=
  match input with
  | [] => .error (.BadSocks5Address "too short")
  | atyp :: rest => do
    match ← AddressKind.from_atyp atyp with
    | .Ipv4 =>
      if rest.length < 6 then throw (.BadSocks5Address "ipv4 address too short")
      pure (.Ipv4 (BitVec.ofNat 32 (Net.from_be_bytes (rest.take 4))) (port_at rest 4), 1 + 4 + 2)
    | .Ipv6 =>
      if rest.length < 18 then throw (.BadSocks5Address "ipv6 address too short")
      pure (.Ipv6 (Net.ipv6_from_octets (rest.take 16)) (port_at rest 16), 1 + 16 + 2)
    | .Domain =>
      match rest with
      | [] => throw (.BadSocks5Address "domain length missing")
      | len :: rest =>
        let len := len.toNat
        if rest.length < len + 2 then throw (.BadSocks5Address "domain address too short")
        match Text.from_utf8 (rest.take len) with
        | .error err => throw (.BadSocks5Address err.to_string)
        | .ok hostname => pure (.Domain hostname (port_at rest len), 1 + 1 + len + 2)

def host : Socks5Address → String
  | .Ipv4 addr _ => Net.ipv4_to_string addr
  | .Domain hostname _ => hostname
  | .Ipv6 addr _ => Net.ipv6_to_string addr

def port : Socks5Address → UInt16
  | .Ipv4 _ port => port
  | .Domain _ port => port
  | .Ipv6 _ port => port

def authority (self : Socks5Address) : String :=
  match self with
  | .Ipv6 addr port => s!"[{Net.ipv6_to_string addr}]:{port}"
  | _ => s!"{self.host}:{self.port}"

end Socks5Address

end DaeNext
