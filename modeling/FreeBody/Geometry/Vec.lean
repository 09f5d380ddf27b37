/-!
# Plane vectors

Positions and displacements in screen coordinates: `x` runs to the right, `y` runs down.
-/

namespace FreeBody

/-- A position or a displacement. -/
structure Vec where
  x : Float
  y : Float
  deriving BEq

namespace Vec

instance : Add Vec := ⟨fun a b => ⟨a.x + b.x, a.y + b.y⟩⟩

instance : Sub Vec := ⟨fun a b => ⟨a.x - b.x, a.y - b.y⟩⟩

/-- `v` stretched by the factor `k`. -/
def scale (k : Float) (v : Vec) : Vec := ⟨v.x * k, v.y * k⟩

/-- The square of the length. -/
def lengthSquared (v : Vec) : Float := v.x * v.x + v.y * v.y

/-- The length. -/
def length (v : Vec) : Float := v.lengthSquared.sqrt

end Vec

end FreeBody
