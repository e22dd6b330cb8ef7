import Rsp.ResourceService.NameLiveness

/-!
# Ping checks of renewed records

A check keeps the key of the record it was made for. When its ping fails it sets the time of the record that has the key by then, which may have been refreshed, or deleted and created again, since the check was enqueued.
-/

namespace Rsp

open Proto

namespace NameService

variable {Time : Type}

end NameService

end Rsp
