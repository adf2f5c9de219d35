/-!
Powers here are those of the natural numbers and of the integers themselves, also where a library
brings a more general notion: a power in a definition and the same power in a theorem about it are
then one term. An exponent that is a numeral says its type, since otherwise the more general notion
would be chosen for it.
-/

namespace WasmEmbed

attribute [scoped instance (2000)] instPowNat

end WasmEmbed
