import Signare.UseCases.Creation

/-!
# Resources are deleted with their entries

A resource that no other names as its parent is deleted after its entries. The state is sound again
once the row is gone too.
-/

namespace Signare

open ByteCodec

variable {source : UUIDSource} {w : Shared}

section Deleting

variable {ctx : TxContext} {k : ResourceKind}

end Deleting

end Signare
