import Highlighter.Language.Part

/-!
# q

The query language of kdb+.
-/
namespace Highlighter.Language.Q

open Grammar (Definition Keywords Mode)

def reserved : String :=
  String.join
    [ "abs acos aj aj0 ajf ajf0 all and any asc asin asof atan attr avg avgs bin binr ",
      "ceiling cols cor cos count cov cross csv cut delete deltas desc dev differ distinct ",
      "div do dsave each ej ema enlist eval except exec exit exp fby fills first fkeys ",
      "flip floor get getenv group gtime hclose hcount hdel hopen hsym iasc idesc if ij ",
      "ijf in insert inter inv key keys last like lj ljf load log lower lsq ltime ltrim ",
      "mavg max maxs mcount md5 mdev med meta min mins mmax mmin mmu mod msum neg next not ",
      "null or over parse peach pj prd prds prev prior rand rank ratios raze read0 read1 ",
      "reciprocal reval reverse rload rotate rsave rtrim save scan scov sdev select set ",
      "setenv show signum sin sqrt ss ssr string sublist sum sums sv svar system tables ",
      "tan til trim type uj ujf ungroup union update upper upsert value var view views vs ",
      "wavg where while within wj wj1 wsum xasc xbar xcol xcols xdesc xexp xgroup xkey ",
      "xlog xprev xrank from by" ]

def keywords : Keywords :=
  { pattern := some "(`?)[A-Za-z0-9_]+\\b"
    classes := .ofList [("keyword", .spaced reserved), ("literal", .spaced "0b 1b")] }

def definition : Definition where
  name := "q"
  aliases := ["k", "kdb"]
  root :=
    { keywords := some keywords
      contains := inlined
        [ { scope := scope "comment"
            beginPattern := source "(^|\\s)/"
            endPattern := source "$"
            relevance := some 0.0 },
          quoteString,
          { scope := scope "built_in"
            beginPattern := source "\\.[hjmQzq]\\.[a-zA-Z][a-zA-Z0-9]*"
            relevance := some 1.0 },
          { scope := scope "symbol"
            beginPattern := source "`([\\w.:]*:[\\w.:/]*|[\\w.:]*)"
            relevance := some 1.0 },
          { scope := scope "literal"
            beginPattern := source "\\b[01]b\\b"
            relevance := some 1.0 },
          { scope := scope "number"
            beginPattern := source
              "\\b(\\d+(\\.\\d+)?(e[+-]?\\d+)?[efhij]?|0[NnWw][efhij]?)\\b"
            relevance := some 1.0 },
          cNumber ] }

end Highlighter.Language.Q
