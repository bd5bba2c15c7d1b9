/-! # Release

The name under which the program makes itself known, and its version.
-/

namespace ProxyConfig.Release

/-- The name of the program. -/
def name : String := "leafconf"

def version : String := "1.0.0"

end ProxyConfig.Release
