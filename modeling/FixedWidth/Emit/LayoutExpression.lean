import FixedWidth.Layout
import FixedWidth.Text.Quoted

/-!
# Emit/LayoutExpression — layouts in emitted source

Emitted routines build a layout with a short constructor where there is one, and otherwise from
its three parts.
-/

namespace FixedWidth.Layout

/-- The expression that builds a layout. -/
def expression (layout : Layout) : String :=
  if layout = text layout.width then s!"FieldLayout::text({layout.width})"
  else if layout = numeric layout.width then s!"FieldLayout::numeric({layout.width})"
  else
    let side := match layout.justify with
      | .left => "Left"
      | .right => "Right"
    let pad := Text.Quoted.character layout.pad
    s!"FieldLayout::new({layout.width}, {pad}, ironfw_core::Justify::{side})"

end FixedWidth.Layout
