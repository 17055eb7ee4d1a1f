import RadixEngineToolkit.Model.Scrypto
import RadixEngineToolkit.Model.Value
import RadixEngineToolkit.Model.Conversions
import RadixEngineToolkit.Sbor.ScryptoValue
import RadixEngineToolkit.Sbor.Convert
import RadixEngineToolkit.Sbor.RoundTrip
import RadixEngineToolkit.Manifest.Ast
import RadixEngineToolkit.Manifest.Convert
import RadixEngineToolkit.Manifest.RoundTrip
import RadixEngineToolkit.Manifest.Receiver
import RadixEngineToolkit.Visitor.IdentityInteractions
import RadixEngineToolkit.Transaction.Instructions
import RadixEngineToolkit.Request.AnalyzeManifest
import RadixEngineToolkit.Request.DecompileUnknown
import RadixEngineToolkit.Sbor.Payload
import RadixEngineToolkit.Sbor.LocalTypeId
