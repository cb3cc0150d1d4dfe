import Highlighter.Language.Part

/-!
# Rust
-/
namespace Highlighter.Language.Rust

open Grammar (Definition Keywords Mode)

def reserved : String :=
  String.join
    [ "abstract as async await become box break const continue crate do dyn else enum ",
      "extern false final fn for if impl in let loop macro match mod move mut override ",
      "priv pub ref return self Self static struct super trait true try type typeof union ",
      "unsafe unsized use virtual where while yield" ]

def literals : String :=
  "true false Some None Ok Err"

def builtIns : String :=
  String.join
    [ "drop Copy Send Sized Sync Drop Fn FnMut FnOnce ToOwned Clone Debug PartialEq ",
      "PartialOrd Eq Ord AsRef AsMut Into From Default Iterator Extend IntoIterator ",
      "DoubleEndedIterator ExactSizeIterator SliceConcatExt ToString assert! assert_eq! ",
      "bitflags! bytes! cfg! col! concat! concat_idents! debug_assert! debug_assert_eq! ",
      "env! eprintln! panic! file! format! format_args! include_bytes! include_str! line! ",
      "local_data_key! module_path! option_env! print! println! select! stringify! try! ",
      "unimplemented! unreachable! vec! write! writeln! macro_rules! assert_ne! ",
      "debug_assert_ne!" ]

def types : String :=
  String.join
    [ "i8 i16 i32 i64 i128 isize u8 u16 u32 u64 u128 usize f32 f64 str char bool Box ",
      "Option Result String Vec" ]

def numberSuffix : String :=
  "([ui](8|16|32|64|128|size)|f(32|64))?"

/-- What can stand in front of a name that is also a keyword. -/
def rawIdentifier : String :=
  "(r#)?"

def name : String :=
  Pattern.concat [rawIdentifier, underscoreIdentifier]

def keywords : Keywords :=
  { pattern := some (identifier ++ "!?")
    classes := .ofList
      [ ("type", .spaced types),
        ("keyword", .spaced reserved),
        ("literal", .spaced literals),
        ("built_in", .spaced builtIns) ] }

def functionCall : Mode where
  scope := scope "title.function.invoke"
  beginPattern := source
    (Pattern.concat
      [ "\\b",
        "(?!let|for|while|if|else|match\\b)",
        Pattern.concat [rawIdentifier, identifier],
        Pattern.lookahead "\\s*\\(" ])
  relevance := some 0.0

def byteString : Mode :=
  { quoteString with beginPattern := source "b?\"", illegal := none }

def strings : Mode where
  scope := scope "string"
  relevance := some 1.0
  variants := some
    [ { beginPattern := source "b?r(#*)\"(.|\\n)*?\"\\1(?!#)" },
      { beginPattern := source "b?'"
        endPattern := source "'"
        contains := inlined
          [ { scope := scope "char.escape"
              matchPattern := source "\\\\('|\\w|x\\w\x7b2\x7d|u\\w\x7b4\x7d|U\\w\x7b8\x7d)"
              relevance := some 1.0 } ] } ]

def numbers : Mode where
  scope := scope "number"
  relevance := some 0.0
  variants := some
    [ { beginPattern := source ("\\b0b([01_]+)" ++ numberSuffix) },
      { beginPattern := source ("\\b0o([0-7_]+)" ++ numberSuffix) },
      { beginPattern := source ("\\b0x([A-Fa-f0-9_]+)" ++ numberSuffix) },
      { beginPattern := source
          ("\\b(\\d[\\d_]*(\\.[0-9_]+)?([eE][+-]?[0-9_]+)?)" ++ numberSuffix) } ]

def itemAttribute : Mode where
  scope := scope "meta"
  beginPattern := source "#!?\\["
  endPattern := source "\\]"
  relevance := some 1.0
  contains := inlined
    [ { scope := scope "string"
        beginPattern := source "\""
        endPattern := source "\""
        relevance := some 1.0
        contains := inlined [backslashEscape] } ]

def sequence (parts : List String) (scopes : List (Nat × String)) : Mode where
  beginPattern := some (.sequence parts)
  scope := some (.groups (.ofList scopes))
  relevance := some 1.0

def definition : Definition where
  name := "Rust"
  aliases := ["rs"]
  root :=
    { keywords := some keywords
      illegal := source "</"
      contains := inlined
        [ cLineComment,
          commentWith "/\\*" "\\*/" { contains := some [.self] },
          byteString,
          { scope := scope "symbol"
            beginPattern := source "'[a-zA-Z_][a-zA-Z0-9_]*(?!')"
            relevance := some 1.0 },
          strings,
          numbers,
          sequence ["fn", "\\s+", name] [(1, "keyword"), (3, "title.function")],
          itemAttribute,
          sequence ["let", "\\s+", "(?:mut\\s+)?", name]
            [(1, "keyword"), (3, "keyword"), (4, "variable")],
          sequence ["for", "\\s+", name, "\\s+", "in"]
            [(1, "keyword"), (3, "variable"), (5, "keyword")],
          sequence ["type", "\\s+", name] [(1, "keyword"), (3, "title.class")],
          sequence ["(?:trait|enum|struct|union|impl|for)", "\\s+", name]
            [(1, "keyword"), (3, "title.class")],
          { beginPattern := source (identifier ++ "::")
            relevance := some 1.0
            keywords := some
              { classes := .ofList
                  [ ("keyword", .spaced "Self"),
                    ("built_in", .spaced builtIns),
                    ("type", .spaced types) ] } },
          { scope := scope "punctuation"
            beginPattern := source "->"
            relevance := some 1.0 },
          functionCall ] }

end Highlighter.Language.Rust
