/-!
# Words of bits
-/
namespace Highlighter.Word

def size (bits : Nat) : Nat :=
  Nat.pow 2 bits

end Highlighter.Word
