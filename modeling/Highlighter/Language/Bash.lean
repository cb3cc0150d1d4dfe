import Highlighter.Language.Part

/-!
# Bash

Bash and shells like it.  Strings, substitutions and variables contain each other,
so they are named modes.
-/
namespace Highlighter.Language.Bash

open Grammar (Child Definition Keywords Mode)

def reserved : List String :=
  [ "if", "then", "else", "elif", "fi", "time", "for", "while", "until", "in", "do", "done",
    "case", "esac", "coproc", "function", "select" ]

def builtIns : String :=
  String.join
    [ "break cd continue eval exec exit export getopts hash pwd readonly return shift test ",
      "times trap umask unset alias bind builtin caller command declare echo enable help ",
      "let local logout mapfile printf read readarray source sudo type typeset ulimit ",
      "unalias set shopt autoload bg bindkey bye cap chdir clone comparguments compcall ",
      "compctl compdescribe compfiles compgroups compquote comptags comptry compvalues ",
      "dirs disable disown echotc echoti emulate fc fg float functions getcap getln ",
      "history integer jobs kill limit log noglob popd print pushd pushln rehash sched ",
      "setcap setopt stat suspend ttyctl unfunction unhash unlimit unsetopt vared wait ",
      "whence where which zcompile zformat zftp zle zmodload zparseopts zprof zpty ",
      "zregexparse zsocket zstyle ztcp chcon chgrp chown chmod cp dd df dir dircolors ln ",
      "ls mkdir mkfifo mknod mktemp mv realpath rm rmdir shred sync touch truncate vdir ",
      "b2sum base32 base64 cat cksum comm csplit cut expand fmt fold head join md5sum nl ",
      "numfmt od paste ptx pr sha1sum sha224sum sha256sum sha384sum sha512sum shuf sort ",
      "split sum tac tail tr tsort unexpand uniq wc arch basename chroot date dirname du ",
      "env expr factor groups hostid id link logname nice nohup nproc pathchk pinky ",
      "printenv readlink runcon seq sleep stdbuf stty tee timeout tty uname unlink uptime ",
      "users who whoami yes" ]

def keywords : Keywords :=
  { pattern := some "\\b[a-z][a-z0-9._-]+\\b"
    classes := .ofList
      [ ("keyword", .words reserved),
        ("literal", .words ["true", "false"]),
        ("built_in", .spaced builtIns) ] }

def variableMode : Mode where
  scope := scope "variable"
  relevance := some 1.0
  variants := some
    [ { beginPattern := source
          (Pattern.concat ["\\$[\\w\\d#@][\\w\\d_]*", "(?![\\w\\d])(?![$])"]) },
      { beginPattern := source "\\$\\\x7b"
        endPattern := source "\\\x7d"
        contains := some
          [ .self,
            .inline
              { beginPattern := source ":-"
                contains := some [.named "variable"] } ] } ]

def substitution : Mode where
  scope := scope "subst"
  beginPattern := source "\\$\\("
  endPattern := source "\\)"
  relevance := some 1.0
  contains := some [.inline backslashEscape, .named "string"]

def stringMode : Mode where
  scope := scope "string"
  beginPattern := source "\""
  endPattern := source "\""
  relevance := some 1.0
  contains := some [.inline backslashEscape, .named "variable", .named "subst"]

def commentMode : Mode :=
  { hashComment with
    beginPattern := none
    endPattern := none
    matchPattern := some (.sequence ["(^|\\s)", "#.*$"])
    scope := some (.groups (.ofList [(2, "comment")])) }

/-- Text up to a line that repeats its first word. -/
def hereDocument : Mode where
  beginPattern := source "<<-?\\s*(?=\\w+)"
  relevance := some 1.0
  starts := some
    { contains := inlined
        [ endSameAsBegin
            { scope := scope "string"
              beginPattern := source "(\\w+)"
              endPattern := source "(\\w+)" } ] }

def arithmetic : Mode where
  beginPattern := source "\\$?\\(\\("
  endPattern := source "\\)\\)"
  relevance := some 1.0
  contains := some
    [ .inline
        { scope := scope "number"
          beginPattern := source "\\d+#[0-9a-f]+"
          relevance := some 1.0 },
      .inline number,
      .named "variable" ]

def functionMode : Mode where
  scope := scope "function"
  beginPattern := source "\\w[\\w\\d_]*\\s*\\(\\s*\\)\\s*\\\x7b"
  returnBegin := some true
  relevance := some 0.0
  contains := inlined [{ title with beginPattern := source "\\w[\\w\\d_]*" }]

def definition : Definition where
  name := "Bash"
  aliases := ["sh", "zsh"]
  modes := .ofList
    [("variable", variableMode), ("subst", substitution), ("string", stringMode)]
  root :=
    { keywords := some keywords
      contains := some
        [ .inline
            { shebang (some "(fish|bash|zsh|sh|csh|ksh|tcsh|dash|scsh)") with
              relevance := some 10.0 },
          .inline (shebang none),
          .inline functionMode,
          .inline arithmetic,
          .inline commentMode,
          .inline hereDocument,
          .inline { matchPattern := source "(/[a-z._-]+)+", relevance := some 1.0 },
          .named "string",
          .inline { matchPattern := source "\\\\\"", relevance := some 1.0 },
          .inline
            { scope := scope "string"
              beginPattern := source "'"
              endPattern := source "'"
              relevance := some 1.0 },
          .inline { matchPattern := source "\\\\'", relevance := some 1.0 },
          .named "variable" ] }

end Highlighter.Language.Bash
