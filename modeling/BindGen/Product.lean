/-!
# The product

The name and the version under which the generator presents itself.
-/

namespace BindGen

/-- The name of the generator. -/
def productName : String := "ffigen"

/-- The version of the generator. -/
def productVersion : String := "0.1.0"

end BindGen
