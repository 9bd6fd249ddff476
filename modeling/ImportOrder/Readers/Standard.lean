import ImportOrder.Grammar.Parse
import ImportOrder.IgnoreFile
import ImportOrder.Manifest.Dependencies
import ImportOrder.Readers

/-!
# The standard readers

The readers that the program uses.
-/

namespace ImportOrder

instance : Readers where
  source? := Source.parse?
  json? := Json.parse?
  dependencies? := Manifest.dependencies?
  isIgnored := IgnoreFile.isIgnored

end ImportOrder
