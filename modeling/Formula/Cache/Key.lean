import Formula.Text.Percent
import Formula.Variable

/-! The key under which a parse is stored. -/

namespace Formula

/-- Variables are ordered by their spelling, those of one spelling by their whole text. -/
def Variable.le (v w : Variable) : Bool :=
  v.spelling < w.spelling || (v.spelling == w.spelling && v.display ≤ w.display)

/-- The text, the variables in order, and the leniency if there is any. -/
def rawCacheKey (source : String) (declared : List Variable) (leniency : Leniency) : String :=
  source ++ "//" ++ String.intercalate "|" ((declared.mergeSort Variable.le).map Variable.display) ++
    if leniency == {} then "" else "//" ++ toString leniency.bits

def cacheKey (source : String) (declared : List Variable) (leniency : Leniency) : String :=
  Text.percentEncode (rawCacheKey source declared leniency)

end Formula
