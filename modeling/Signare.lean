import Signare.Lib.BigEndian
import Signare.Lib.Hex
import Signare.Lib.Numeral
import Signare.Lib.Outcome
import Signare.Lib.RlpItem
import Signare.Lib.RlpForm
import Signare.Lib.Reach
import Signare.Lib.Keccak
import Signare.Commons.RlpRestore
import Signare.Commons.Errors
import Signare.Entities.EncodingTypes
import Signare.Entities.Address
import Signare.HSMConnector.Transaction
import Signare.HSMConnector.Encoding
import Signare.HSMConnector.Preimage
import Signare.EIP712.TypedData
import Signare.EIP712.Encode
import Signare.EIP712.TypeString
import Signare.EIP712.Datum
import Signare.EIP712.Injective
import Signare.EIP712.Termination
import Signare.EIP712.Standard
import Signare.EIP712.Acceptance
import Signare.EIP712.Dependencies
import Signare.EIP712.Reference
import Signare.HSMConnector.Carried
import Signare.HSMConnector.Recoverable
import Signare.HSMConnector.CanonicalIntegers
import Signare.TransactionalManager.Atomicity
import Signare.TransactionalManager.AfterCommit
import Signare.Concurrent.Admins
import Signare.Concurrent.LocalKeys
import Signare.Concurrent.Revocation
import Signare.Concurrent.Atomicity
import Signare.Concurrent.ImportedKeys
import Signare.UseCases.Integrity
import Signare.Persistence.MigrationRecord
import Signare.UseCases.Disciplined
import Signare.RpcInfra.AuthorizedSigner
import Signare.RpcInfra.ChainBinding
import Signare.RpcInfra.Batch
import Signare.Entities.HexNumber
import Signare.RpcInfra.AdaptLists
import Signare.Entities.TextCodecs
import Signare.Entities.AddressText
import Signare.Persistence.MigrationPlan
import Signare.UseCases.Listings
import Signare.SignatureManager.AKV
import Signare.SignatureManager.ListKeys
import Signare.SignatureManager.Reset
import Signare.SignatureManager.KeyPairs
import Signare.SignatureManager.Sessions
import Signare.Entities.Int256
import Signare.Authorization.RbacValidator
import Signare.Middleware.Mediation
