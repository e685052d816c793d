import Swatchbook.Source.ColorsFile
import Swatchbook.Source.RegistryFile
/-!
Emission of a theme set as source code.
-/
namespace Swatchbook.Source

def emit (s : ThemeSet) (ns : Namespace) : Except EmitError (List SourceFile) :=
  (Plan.build s ns).map fun p => [colorsFile p, registryFile p]

end Swatchbook.Source
