import BoostUdp.Uso.Wire

/-!
# The client of Windows and the server

What the client reports is what the server prints, also when a send fails
between the batches.
-/

namespace BoostUdp

open LittleEndian

section Client

variable {σ ρ υ : Type} {system : Winsock σ} {byteDist : ρ → Byte × ρ}
  {options : ClientOptions} {socket : UsoSocket} {wire : σ → Wire}
  {dest : SockAddr} {destLen : Nat}

end Client

end BoostUdp
