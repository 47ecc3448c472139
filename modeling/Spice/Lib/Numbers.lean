import Mathlib.Algebra.Order.Ring.Int

namespace Spice
namespace Lib

/-!
# Numbers

The arithmetic of all modules is found through the ordered ring of the
integers.  The tables of three dependencies and of four channels are indexed
by `Fin 3` and `Fin 4`; that these have a first place is stated once.
-/

instance threePlaces : NeZero 3 := ⟨by decide⟩

instance fourPlaces : NeZero 4 := ⟨by decide⟩

end Lib
end Spice
