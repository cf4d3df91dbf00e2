import FormatCheck.Code

/-! # Explanations of codes -/

namespace FormatCheck.Code

/-- The lines of the page that explains a code. -/
def pageLines : Code → List String
  | unknownConversion =>
    [ "# E0001: Unknown conversion",
      "",
      "A `%` in the format string is not followed by a recognized conversion",
      "character.",
      "",
      "## Example",
      "",
      "```java",
      "String.format(\"Year: %Y\", date);   // `Y` is not a conversion",
      "String.format(\"100%\");             // dangling `%` at the end",
      "```",
      "",
      "## Solution",
      "",
      "Use one of `b h s c d o x e f g a t % n` (and the uppercase forms",
      "`B H S C X E G A T`). A literal percent sign is written `%%`. Date fields",
      "are written with the `t` prefix: `%tY`." ]
  | unknownDateSuffix =>
    [ "# E0002: Unknown date/time conversion",
      "",
      "A `%t` or `%T` conversion is followed by a character that is not a",
      "date/time suffix.",
      "",
      "## Example",
      "",
      "```java",
      "String.format(\"%tq\", calendar);   // `q` is not a date/time suffix",
      "```",
      "",
      "## Solution",
      "",
      "Use one of the date/time suffixes:",
      "`H I k l M S L N p z Z s Q B b h A a C Y y j m d e R T r D F c`.",
      "Suffixes are case-sensitive." ]
  | invalidNumber =>
    [ "# E0003: Invalid argument index",
      "",
      "An explicit argument index (`n$`) is zero, or a number in the specifier",
      "is too large to represent. Argument indices start at 1.",
      "",
      "## Example",
      "",
      "```java",
      "String.format(\"%0$s\", name);",
      "```",
      "",
      "## Solution",
      "",
      "Use `%1$s` to refer to the first argument." ]
  | duplicateFlag =>
    [ "# E0004: Duplicate flag",
      "",
      "The same flag character appears more than once in one specifier.",
      "",
      "## Example",
      "",
      "```java",
      "String.format(\"%--8s\", name);",
      "```",
      "",
      "## Solution",
      "",
      "Write each flag at most once: `%-8s`." ]
  | flagNotApplicable =>
    [ "# E0005: Flag not applicable to conversion",
      "",
      "A flag was given to a conversion that cannot use it, for example the",
      "alternate form `#` with `%d`, or grouping `,` with `%x`.",
      "",
      "## Example",
      "",
      "```java",
      "String.format(\"%#d\", count);",
      "String.format(\"%,x\", mask);",
      "```",
      "",
      "## Solution",
      "",
      "Remove the flag, or use a conversion that supports it." ]
  | exclusiveFlags =>
    [ "# E0006: Mutually exclusive flags",
      "",
      "Two flags that cannot be combined were given to one specifier: `+` with",
      "` ` (space), or `-` with `0`.",
      "",
      "## Example",
      "",
      "```java",
      "String.format(\"%+ d\", value);",
      "String.format(\"%-08d\", value);",
      "```",
      "",
      "## Solution",
      "",
      "Keep only one of the two flags." ]
  | precisionNotAllowed =>
    [ "# E0007: Precision not allowed",
      "",
      "A precision (`.n`) was given to a conversion that does not take one:",
      "`c`, `d`, `o`, `x`, the date/time conversions, `%%` and `%n`.",
      "",
      "## Example",
      "",
      "```java",
      "String.format(\"%.2d\", count);",
      "```",
      "",
      "## Solution",
      "",
      "Remove the precision, or format the value as a floating point number." ]
  | missingWidth =>
    [ "# E0008: Flag requires a width",
      "",
      "The `-` (left-justify) and `0` (zero-pad) flags only make sense with a",
      "width, and none was given.",
      "",
      "## Example",
      "",
      "```java",
      "String.format(\"%-s\", name);",
      "```",
      "",
      "## Solution",
      "",
      "Add a width: `%-10s`." ]
  | widthNotAllowed =>
    [ "# E0009: Width not allowed",
      "",
      "A width was given to `%n`, which always produces exactly the platform",
      "line separator.",
      "",
      "## Example",
      "",
      "```java",
      "String.format(\"line%4n\");",
      "```",
      "",
      "## Solution",
      "",
      "Remove the width: `%n`." ]
  | missingArgument =>
    [ "# E1001: Missing argument",
      "",
      "A specifier refers to an argument position beyond the arguments that are",
      "actually passed. At runtime this throws `MissingFormatArgumentException`.",
      "",
      "## Example",
      "",
      "```java",
      "String.format(\"%s and %s\", first);      // position 2 is missing",
      "String.format(\"%3$s\", a, b);            // position 3 is missing",
      "```",
      "",
      "## Solution",
      "",
      "Pass the missing argument, or remove the specifier." ]
  | noPreviousArgument =>
    [ "# E1002: No previous argument",
      "",
      "A relative index (`%<`) reuses the argument of the previous specifier, but",
      "no earlier specifier has referred to an argument yet.",
      "",
      "## Example",
      "",
      "```java",
      "String.format(\"%<te, %te\", calendar);",
      "```",
      "",
      "## Solution",
      "",
      "Name the argument explicitly for the first use: `%1$te, %<te`." ]
  | extraArguments =>
    [ "# E1003: Extra arguments",
      "",
      "More arguments were passed than the format string ever refers to. The",
      "trailing arguments are silently ignored at runtime, which usually means a",
      "specifier is missing.",
      "",
      "## Example",
      "",
      "```java",
      "String.format(\"%s %s\", a, b, c);   // `c` is never formatted",
      "```",
      "",
      "## Solution",
      "",
      "Add a specifier for each argument, or remove the unused arguments." ]
  | incompatibleType =>
    [ "# E2001: Argument type incompatible with conversion",
      "",
      "The declared type of an argument cannot be formatted by the conversion",
      "that refers to it. At runtime this throws",
      "`IllegalFormatConversionException`.",
      "",
      "## Example",
      "",
      "```java",
      "String.format(\"%d\", \"42\");        // a String is not an integral value",
      "String.format(\"%b\", 0);           // an Integer is not a boolean",
      "String.format(\"%tY\", \"2008\");     // a String is not a date",
      "```",
      "",
      "## Solution",
      "",
      "Use a conversion that accepts the type (`%s` accepts anything), or pass a",
      "value of the expected type.",
      "",
      "| Conversion | Accepts |",
      "|---|---|",
      "| `d o x X` | `byte short int long` and wrappers, `BigInteger` |",
      "| `e f g a` | `float double` and wrappers, `BigDecimal` (not for `a`) |",
      "| `c` | `char byte short int` and wrappers |",
      "| `b` | `boolean`, `Boolean` |",
      "| `t` | `long`, `Long`, `Calendar`, `Date` and its `java.sql` subtypes |",
      "| `s h` | any non-array type |" ]
  | arrayArgument =>
    [ "# E2002: Array passed to conversion",
      "",
      "An array was passed where a single value is formatted. `%s` would print",
      "the array's identity (`[I@1b6d3586`) rather than its contents, which is",
      "almost never intended.",
      "",
      "## Example",
      "",
      "```java",
      "int[] values = \x7b42, 17\x7d;",
      "String.format(\"%s\", values);",
      "```",
      "",
      "## Solution",
      "",
      "Format the contents instead: `String.format(\"%s\", Arrays.toString(values))`." ]
  | invalidSignature =>
    [ "# E2003: Malformed type descriptor",
      "",
      "The type descriptor supplied for an argument is not a valid signature, so",
      "no conversion can be checked against it.",
      "",
      "Valid descriptors are a primitive letter (`Z B C S I J F D`), an object",
      "type `Lpackage/Class;`, or `[` followed by a valid descriptor.",
      "",
      "## Solution",
      "",
      "Fix the tool that produced the descriptor list." ]

/-- The page that explains a code. -/
def page (code : Code) : String :=
  String.join (code.pageLines.map (· ++ "\n"))

end FormatCheck.Code
