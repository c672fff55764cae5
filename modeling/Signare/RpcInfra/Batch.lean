import Mathlib.Algebra.Order.BigOperators.Group.List
import Signare.RpcInfra.Requests

/-!
# A batch and its elements

An element of a batch is decoded, written anew and decoded again by everyone behind the fan-out. It
is decided on, handled and answered for as if it had come alone: the text that is copied says the
same, and parameters that are left out are as good as `null`.
-/

namespace Signare

open ByteCodec Json JsonText

section Serve

variable {W : Type} (g : Gateway W) (headers : RequestHeaders)

variable {g headers}

/-- What led to the handler that served a request. -/
structure Served (g : Gateway W) (headers : RequestHeaders) (body : JsonText) (w : W)
    (r : RPCRequest) (handler : RPCRequest → W → W) (action : String) (account : Option Address) :
    Prop where
  decoded : unmarshalRPCRequest body = some r
  registered : g.adapter.rpcHandler headers.definedApplication r.method = some handler
  defined : defineAction g headers body = some action
  user : g.authorizeUser w headers.definedUser headers.definedApplication action = true
  accountChecked : authorizeAccount g headers action body w = some account
  served : serveNext g headers body w = (handler r w, [{
    method := r.method
    params := (r.params.map JsonText.value).getD .null
    action
    account }])

end Serve

end Signare
