/-! Machine integers have 64 bits and a sign. -/

namespace Placeholder.Integer

/-- The machine integer that is equal to an integer, if there is one. -/
def narrow? (value : Int) : Option Int64 :=
  if (Int64.ofInt value).toInt = value then some (Int64.ofInt value) else none

/-- The machine integer nearest to an integer. -/
def saturate (value : Int) : Int64 :=
  Int64.ofIntClamp value

end Placeholder.Integer
