/-!
# Dialects

The forms of the language that a file may use, which the extension of its name decides.

## Main definitions

- `Dialect`, `Dialect.ofExtension`
-/

namespace ImportOrder

/-- Which extensions of the plain language a file may use. -/
structure Dialect where
  /-- Type annotations and the other additions of TypeScript. -/
  typescript : Bool
  /-- Markup in expressions. -/
  jsx : Bool
  /-- Is the file a module rather than a script? -/
  isModule : Bool
deriving DecidableEq, Repr, Inhabited

namespace Dialect

/-- The dialect of files with the given extension. Only the explicit script extensions make a file a
script. -/
def ofExtension (extension : Option String) : Dialect where
  typescript := extension.any ["ts", "tsx", "mts", "cts"].contains
  jsx := extension.any ["tsx", "jsx"].contains
  isModule := !extension.any ["cjs", "cts"].contains

end Dialect

end ImportOrder
