import BoostUdp.Uso.SendBuffer

/-!
# The address that the client binds to

With the default source the client looks up the interface that routes to the
destination and binds to an address of it, so that the address which goes out
with a batch is one that the replies can reach.
-/

namespace BoostUdp

open LittleEndian

/-- An adapter, as far as it is looked at.  An address may be missing. -/
structure Adapter where
  up : Bool
  ifIndex : Word
  ipv6IfIndex : Word
  unicast : List (Option SockAddr)
  deriving DecidableEq, Repr

/-- What `GetAdaptersAddresses` fills in, or the size that it needs. -/
inductive AdapterList where
  | found (adapters : List Adapter)
  | overflow (bufferSize : Nat)
  | failed
  deriving DecidableEq, Repr

/-- The calls that set sockets up, beside those on the one that sends. -/
structure SocketLibrary (σ : Type) extends Winsock σ where
  wsaGetLastError : σ → Word
  getAdaptersAddresses : Nat → σ → AdapterList × σ
  wsaStartup : σ → Bool × σ
  wsaSocket : σ → Except Word Nat × σ
  setReuseAddr : Nat → σ → Except Word Unit × σ
  setSndBuf : Nat → σ → Except Word Unit × σ
  bind : Nat → SockAddr → σ → Except Word Unit × σ
  getsockname : Nat → σ → Except Word (BitVec 16 × BitVec 32) × σ
  closesocket : Nat → σ → σ

/-- What the client throws: a text, or what `make_address` says of an
address. -/
inductive ClientError where
  | runtime (what : String)
  | address (text : String)
  deriving DecidableEq, Repr

def bindOptionIsWildcard (text : String) : Bool :=
  text = "0.0.0.0" || text = "*" || text = "0"

/-- An IPv4 address that is neither unspecified nor the host itself. -/
def candidate (unicast : Option SockAddr) : Option AddressV4 :=
  match unicast with
  | some (.inet _ address) =>
      let candidate : AddressV4 := ⟨address⟩
      if !candidate.isUnspecified && !candidate.isLoopback then
        some candidate
      else
        none
  | _ => none

/-- The loop over the adapters, and the one over the addresses in it. -/
def searchAdapters (ifIndex : Word) : List Adapter → Option AddressV4
  | [] => none
  | adapter :: rest =>
      if !adapter.up then
        searchAdapters ifIndex rest
      else if adapter.ifIndex ≠ ifIndex ∧ adapter.ipv6IfIndex ≠ ifIndex then
        searchAdapters ifIndex rest
      else
        match adapter.unicast.findSome? candidate with
        | some address => some address
        | none => searchAdapters ifIndex rest

/-- The adapter is up and belongs to the interface. -/
def Adapter.Serves (adapter : Adapter) (ifIndex : Word) : Prop :=
  adapter.up = true ∧
    (adapter.ifIndex = ifIndex ∨ adapter.ipv6IfIndex = ifIndex)

/-- The address is one of an adapter of the interface, and fit to send from. -/
structure Egress (adapters : List Adapter) (ifIndex : Word)
    (address : AddressV4) : Prop where
  configured : ∃ adapter ∈ adapters, adapter.Serves ifIndex ∧
    ∃ port, some (.inet port address.bytes) ∈ adapter.unicast
  specified : address.isUnspecified = false
  remote : address.isLoopback = false

theorem candidate_eq_some_iff {unicast : Option SockAddr}
    {address : AddressV4} :
    candidate unicast = some address ↔
      (∃ port, unicast = some (.inet port address.bytes)) ∧
        address.isUnspecified = false ∧ address.isLoopback = false := by
  constructor
  · intro found
    rcases unicast with _ | ⟨port, bytes⟩ | other
    · contradiction
    · simp only [candidate] at found
      by_cases fit : (!(AddressV4.mk bytes).isUnspecified &&
          !(AddressV4.mk bytes).isLoopback) = true
      · rw [if_pos fit] at found
        cases found
        rw [Bool.and_eq_true, Bool.not_eq_true', Bool.not_eq_true'] at fit
        exact ⟨⟨port, rfl⟩, fit⟩
      · rw [if_neg fit] at found
        contradiction
    · contradiction
  · rintro ⟨⟨port, rfl⟩, specified, remote⟩
    simp only [candidate, specified, remote, Bool.not_false, Bool.and_self,
      if_true]

instance (adapter : Adapter) (ifIndex : Word) :
    Decidable (adapter.Serves ifIndex) :=
  inferInstanceAs (Decidable (_ ∧ _))

/-- The loops take the first address that is fit, of the first adapter of the
interface that has one. -/
theorem searchAdapters_eq (ifIndex : Word) (adapters : List Adapter) :
    searchAdapters ifIndex adapters =
      (adapters.filter fun adapter => adapter.Serves ifIndex).findSome?
        fun adapter => adapter.unicast.findSome? candidate := by
  induction adapters with
  | nil => rfl
  | cons adapter rest induction =>
      rw [searchAdapters, List.filter_cons, induction]
      by_cases down : adapter.up = false
      · have aside : ¬adapter.Serves ifIndex := by
          rintro ⟨up, _⟩
          rw [down] at up
          contradiction
        rw [if_pos (by rw [down]; rfl),
          if_neg (by rw [decide_eq_true_eq]; exact aside)]
      · have up : adapter.up = true := by
          rw [← Bool.not_eq_false]
          exact down
        rw [if_neg (by rw [up]; decide)]
        by_cases other : adapter.ifIndex ≠ ifIndex ∧
            adapter.ipv6IfIndex ≠ ifIndex
        · have aside : ¬adapter.Serves ifIndex := by
            rintro ⟨_, same | same⟩
            · exact other.1 same
            · exact other.2 same
          rw [if_pos other, if_neg (by rw [decide_eq_true_eq]; exact aside)]
        · have serves : adapter.Serves ifIndex := by
            refine ⟨up, ?_⟩
            by_contra neither
            exact other (not_or.mp neither)
          rw [if_neg other, if_pos (by rw [decide_eq_true_eq]; exact serves),
            List.findSome?_cons]
          cases adapter.unicast.findSome? candidate with
          | none => rfl
          | some address => rfl

/-- An address is found if there is one that is fit, and what is found is. -/
theorem searchAdapters_spec (ifIndex : Word) (adapters : List Adapter) :
    match searchAdapters ifIndex adapters with
    | some address => Egress adapters ifIndex address
    | none => ∀ address, ¬Egress adapters ifIndex address := by
  rw [searchAdapters_eq]
  cases found : (adapters.filter fun adapter =>
      adapter.Serves ifIndex).findSome? fun adapter =>
        adapter.unicast.findSome? candidate with
  | some address =>
    obtain ⟨adapter, member, fit⟩ := List.exists_of_findSome?_eq_some found
    obtain ⟨unicast, inside, taken⟩ := List.exists_of_findSome?_eq_some fit
    obtain ⟨known, serves⟩ := List.mem_filter.mp member
    obtain ⟨⟨port, rfl⟩, specified, remote⟩ :=
      candidate_eq_some_iff.mp taken
    exact
      { configured :=
          ⟨adapter, known, of_decide_eq_true serves, port, inside⟩
        specified := specified
        remote := remote }
  | none =>
    intro address egress
    obtain ⟨adapter, known, serves, port, inside⟩ := egress.configured
    have member : adapter ∈ adapters.filter
        fun adapter => adapter.Serves ifIndex :=
      List.mem_filter.mpr ⟨known, decide_eq_true serves⟩
    have unfit := List.findSome?_eq_none_iff.mp
      (List.findSome?_eq_none_iff.mp found adapter member) _ inside
    have fit := candidate_eq_some_iff.mpr
      ⟨⟨port, rfl⟩, egress.specified, egress.remote⟩
    rw [fit] at unfit
    contradiction

section Resolve

variable {σ : Type} (library : SocketLibrary σ)

/-- The list is asked for once more when the first buffer is too small. -/
def ipv4OnInterfaceIndex (ifIndex : Word) (state : σ) :
    Option AddressV4 × σ :=
  match library.getAdaptersAddresses (15 * 1024) state with
  | (.found adapters, state) => (searchAdapters ifIndex adapters, state)
  | (.failed, state) => (none, state)
  | (.overflow bufferSize, state) =>
      match library.getAdaptersAddresses bufferSize state with
      | (.found adapters, state) => (searchAdapters ifIndex adapters, state)
      | (_, state) => (none, state)

def ipv4EgressForDestination (destination : Endpoint) (state : σ) :
    Option (AddressV4 × Word) × σ :=
  match destination.address with
  | .v6 _ => (none, state)
  | .v4 address =>
      match library.getBestInterfaceEx
          (.inet (htons destination.port) address.bytes) state with
      | (none, state) => (none, state)
      | (some ifIndex, state) =>
          match ipv4OnInterfaceIndex library ifIndex state with
          | (none, state) => (none, state)
          | (some address, state) => (some (address, ifIndex), state)

end Resolve

structure UsoBindInfo where
  bindAddress : String
  interfaceIndex : Word := 0
  autoSelected : Bool := false
  deriving DecidableEq, Repr

section Resolve

variable {σ : Type} (library : SocketLibrary σ)
  (makeAddress : String → Option Address) (toText : AddressV4 → String)

/-- The index of the interface with an address, or zero. -/
def addressInterface (source : Address) (state : σ) : Word × σ :=
  match source with
  | .v6 _ => (0, state)
  | .v4 address =>
      match ipv4InterfaceIndex library.toWinsock address state with
      | (some index, state) => (index, state)
      | (none, state) => (0, state)

/-- The index for a source address that was asked for; where it has none, that
of the interface which routes to the destination. -/
def sourceInterface (source : Address) (destination : Endpoint) (state : σ) :
    Word × σ :=
  match addressInterface library source state with
  | (interfaceIndex, state) =>
      if interfaceIndex = 0 then
        match ipv4EgressForDestination library destination state with
        | (some (_, index), state) => (index, state)
        | (none, state) => (0, state)
      else
        (interfaceIndex, state)

def resolveUsoBindAddress (sourceOption : String) (destination : Endpoint)
    (state : σ) : Except ClientError UsoBindInfo × σ :=
  if !bindOptionIsWildcard sourceOption then
    match parseAddress makeAddress sourceOption with
    | none => (.error (.address sourceOption), state)
    | some source =>
        match sourceInterface library source destination state with
        | (interfaceIndex, state) =>
            (.ok { bindAddress := sourceOption
                   interfaceIndex := interfaceIndex }, state)
  else
    match ipv4EgressForDestination library destination state with
    | (none, state) => (.ok { bindAddress := sourceOption }, state)
    | (some (egress, ifIndex), state) =>
        (.ok { bindAddress := toText egress
               interfaceIndex := ifIndex
               autoSelected := true }, state)

end Resolve

/-- The routes and the adapters of a host, while they do not change.  A buffer
that is large enough for the adapters is filled. -/
structure Host {σ : Type} (library : SocketLibrary σ)
    (routes : SockAddr → Option Word) (adapters : List Adapter) : Prop where
  best : ∀ address state,
    library.getBestInterfaceEx address state = (routes address, state)
  listed : ∀ state, ∃ bufferSize,
    (library.getAdaptersAddresses (15 * 1024) state =
        (.found adapters, state) ∨
      library.getAdaptersAddresses (15 * 1024) state =
        (.overflow bufferSize, state)) ∧
      library.getAdaptersAddresses bufferSize state =
        (.found adapters, state)

section Resolve

variable {σ : Type} {library : SocketLibrary σ}
  {routes : SockAddr → Option Word} {adapters : List Adapter}
  (host : Host library routes adapters)

include host

theorem Host.onInterface (ifIndex : Word) (state : σ) :
    ipv4OnInterfaceIndex library ifIndex state =
      (searchAdapters ifIndex adapters, state) := by
  obtain ⟨bufferSize, first, second⟩ := host.listed state
  rw [ipv4OnInterfaceIndex]
  rcases first with found | overflow
  · rw [found]
  · rw [overflow]
    dsimp only
    rw [second]

theorem Host.egress {destination : Endpoint} {address : AddressV4}
    (ipv4 : destination.address = .v4 address) (state : σ) :
    ipv4EgressForDestination library destination state =
      ((routes (.inet (htons destination.port) address.bytes)).bind
        fun ifIndex => (searchAdapters ifIndex adapters).map
          fun egress => (egress, ifIndex), state) := by
  rw [ipv4EgressForDestination, ipv4]
  dsimp only
  rw [host.best]
  cases routes (.inet (htons destination.port) address.bytes) with
  | none => rfl
  | some ifIndex =>
      dsimp only
      rw [host.onInterface]
      cases found : searchAdapters ifIndex adapters with
      | none => simp [found]
      | some egress => simp [found]

variable (makeAddress : String → Option Address)
  (toText : AddressV4 → String)

/-- With the default source the client binds to an address of the interface
that routes to the destination whenever that interface has one to send from,
and leaves the choice to the system only when there is none. -/
theorem Host.resolve_wildcard {sourceOption : String}
    (wildcard : bindOptionIsWildcard sourceOption = true)
    {destination : Endpoint} {address : AddressV4}
    (ipv4 : destination.address = .v4 address) (state : σ) :
    ∃ info,
      resolveUsoBindAddress library makeAddress toText sourceOption
          destination state = (.ok info, state) ∧
        (info.autoSelected = true → ∃ egress,
          info.bindAddress = toText egress ∧
            routes (.inet (htons destination.port) address.bytes) =
              some info.interfaceIndex ∧
            Egress adapters info.interfaceIndex egress) ∧
        (info.autoSelected = false →
          info = { bindAddress := sourceOption } ∧
            ∀ ifIndex egress,
              routes (.inet (htons destination.port) address.bytes) =
                some ifIndex → ¬Egress adapters ifIndex egress) := by
  rw [resolveUsoBindAddress, if_neg (by rw [wildcard]; decide),
    host.egress ipv4]
  cases route : routes (.inet (htons destination.port) address.bytes) with
  | none =>
      refine ⟨{ bindAddress := sourceOption }, rfl, ?_, ?_⟩
      · intro selected
        contradiction
      · intro _
        refine ⟨rfl, ?_⟩
        intro ifIndex egress known
        contradiction
  | some ifIndex =>
      have spec := searchAdapters_spec ifIndex adapters
      rw [Option.bind_some]
      cases found : searchAdapters ifIndex adapters with
      | none =>
          rw [found] at spec
          refine ⟨{ bindAddress := sourceOption }, rfl, ?_, ?_⟩
          · intro selected
            contradiction
          · intro _
            refine ⟨rfl, ?_⟩
            intro ifIndex' egress known
            cases known
            exact spec egress
      | some egress =>
          rw [found] at spec
          refine ⟨_, rfl, ?_, ?_⟩
          · intro _
            exact ⟨egress, rfl, rfl, spec⟩
          · intro system
            contradiction

end Resolve

end BoostUdp
