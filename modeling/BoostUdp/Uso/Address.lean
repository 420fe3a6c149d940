import BoostUdp.LittleEndian

/-!
# Addresses

IP addresses and endpoints as the socket library has them, and their socket
addresses.  The sender writes socket addresses and the receiver reads them
back.
-/

namespace BoostUdp

open LittleEndian

/-- The bytes of an address are in network order. -/
structure AddressV4 where
  bytes : BitVec 32
  deriving DecidableEq, Repr

structure AddressV6 where
  bytes : BitVec 128
  scopeId : BitVec 32 := 0
  deriving DecidableEq, Repr

inductive Address where
  | v4 (address : AddressV4)
  | v6 (address : AddressV6)
  deriving DecidableEq, Repr

structure Endpoint where
  address : Address
  port : BitVec 16
  deriving DecidableEq, Repr

def AddressV4.isUnspecified (address : AddressV4) : Bool :=
  address.bytes = 0

/-- `127.0.0.0/8`. -/
def AddressV4.isLoopback (address : AddressV4) : Bool :=
  address.bytes.extractLsb' 24 8 = 127

def AddressV4.toBytes (address : AddressV4) : List Byte :=
  (List.range 4).map fun index =>
    address.bytes.extractLsb' (8 * (3 - index)) 8

/-- The scope does not matter. -/
def AddressV6.isUnspecified (address : AddressV6) : Bool :=
  address.bytes = 0

def AddressV6.toBytes (address : AddressV6) : List Byte :=
  (List.range 16).map fun index =>
    address.bytes.extractLsb' (8 * (15 - index)) 8

def Address.isUnspecified : Address → Bool
  | .v4 address => address.isUnspecified
  | .v6 address => address.isUnspecified

def sourceAddressIsUnspecified (address : Address) : Bool :=
  if address.isUnspecified then
    true
  else
    match address with
    | .v4 v4 => if v4.isUnspecified then true else false
    | .v6 v6 => if v6.isUnspecified then true else false

@[simp] theorem sourceAddressIsUnspecified_eq (address : Address) :
    sourceAddressIsUnspecified address = address.isUnspecified := by
  cases address with
  | v4 address =>
      simp only [sourceAddressIsUnspecified, Address.isUnspecified]
      split <;> simp_all
  | v6 address =>
      simp only [sourceAddressIsUnspecified, Address.isUnspecified]
      split <;> simp_all

/-- What is not one of the known texts is left to `make_address`, which may
refuse it. -/
def parseAddress (makeAddress : String → Option Address) (text : String) :
    Option Address :=
  if text = "*" ∨ text = "0.0.0.0" ∨ text = "0" then
    some (.v4 ⟨0⟩)
  else if text = "::" ∨ text = "0:0:0:0:0:0:0:0" then
    some (.v6 ⟨0, 0⟩)
  else
    makeAddress text

/-- A `sockaddr_in` or `sockaddr_in6`, with its port as it is stored. -/
inductive SockAddr where
  | inet (port : BitVec 16) (address : BitVec 32)
  | inet6 (port : BitVec 16) (address : BitVec 128) (scopeId : BitVec 32)
  deriving DecidableEq, Repr

def SockAddr.size : SockAddr → Nat
  | .inet _ _ => 16
  | .inet6 _ _ _ => 28

/-- `htons` of a machine that stores the low byte first, and `ntohs`. -/
def htons (port : BitVec 16) : BitVec 16 :=
  port.extractLsb' 0 8 ++ port.extractLsb' 8 8

theorem htons_htons (port : BitVec 16) : htons (htons port) = port := by
  apply BitVec.eq_of_getLsbD_eq
  intro index inside
  simp only [htons, BitVec.getLsbD_append, BitVec.getLsbD_extractLsb']
  by_cases low : index < 8
  · simp [low, show ¬8 + index < 8 by omega, show 8 + index - 8 = index by omega]
  · have high : index - 8 < 8 := by omega
    simp [low, high, show 8 + (index - 8) = index by omega]

/-- The socket address and its length; every address belongs to a family. -/
def endpointToSockaddr (target : Endpoint) : Option (SockAddr × Nat) :=
  match target.address with
  | .v4 address =>
      some (.inet (htons target.port) address.bytes, 16)
  | .v6 address =>
      some (.inet6 (htons target.port) address.bytes address.scopeId, 28)

def sockaddrToEndpoint (storage : SockAddr) (storageLen : Nat) :
    Option Endpoint :=
  match storage with
  | .inet port address =>
      if 16 ≤ storageLen then
        some { address := .v4 ⟨address⟩, port := htons port }
      else
        none
  | .inet6 port address scopeId =>
      if 28 ≤ storageLen then
        some { address := .v6 ⟨address, scopeId⟩, port := htons port }
      else
        none

/-- What the sender writes is never refused, and the receiver reads it back. -/
theorem endpointToSockaddr_roundtrip (target : Endpoint) :
    ∃ storage length, endpointToSockaddr target = some (storage, length) ∧
      length = storage.size ∧
      sockaddrToEndpoint storage length = some target := by
  obtain ⟨address, port⟩ := target
  cases address with
  | v4 address =>
      refine ⟨_, _, rfl, rfl, ?_⟩
      simp [sockaddrToEndpoint, htons_htons]
  | v6 address =>
      refine ⟨_, _, rfl, rfl, ?_⟩
      simp [sockaddrToEndpoint, htons_htons]

end BoostUdp
