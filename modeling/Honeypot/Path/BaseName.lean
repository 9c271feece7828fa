/-!
# Base names

The last component of a path text, by which a command line selects its command.

## References

- [SPEC] `SPEC_FULL.md`: §4.5, Dispatcher
-/

namespace Honeypot.Path

/-- The part of a path after its last slash, slashes at its end not counted. A path of slashes
alone has the base name `/`, and an empty path `.`. -/
def baseName (path : String) : String :=
  if path = "" then "."
  -- Reversed, the slashes at the end come first and the last component right after them.
  else match path.toList.reverse.dropWhile (· == '/') with
    | [] => "/"
    | trimmed => String.ofList (trimmed.takeWhile (· != '/')).reverse

end Honeypot.Path
