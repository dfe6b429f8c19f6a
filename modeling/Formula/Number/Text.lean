import Formula.Binary.Decimal
import Formula.Number

/-!
How numbers are written: as values and in listings.
-/

namespace Formula.Number

def text : Number → String
  | .int value => toString value.toInt
  | .long value => toString value.toInt
  | .float value => FloatNotation.value.text value
  | .double value => FloatNotation.value.text value

def listingText : Number → String
  | .int value => toString value.toInt
  | .long value => toString value.toInt
  | .float value => FloatNotation.listing.text value
  | .double value => FloatNotation.listing.text value

end Formula.Number
