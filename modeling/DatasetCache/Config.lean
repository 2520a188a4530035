import DatasetCache.Fault

/-!
# Configuration

What a cache is built from, apart from its services: a namespace, the runtime
arguments of the program, and the static datasets with their explicit arguments.
-/

namespace DatasetCache

structure Config where
  realm : String := "default"
  runtime : Arguments := Table.empty
  statics : Table String Arguments := Table.empty
  deriving DecidableEq, Repr, Inhabited

namespace Config

def withStatic (config : Config) (name : String) (arguments : Arguments) : Config :=
  { config with statics := config.statics.insert name arguments }

/-! ## Validity -/

/-- The characters with the Unicode property White_Space. -/
def isSpace (c : Char) : Bool :=
  let n := c.toNat
  (0x09 ≤ n && n ≤ 0x0D) || n == 0x20 || n == 0x85 || n == 0xA0 || n == 0x1680
    || (0x2000 ≤ n && n ≤ 0x200A) || n == 0x2028 || n == 0x2029 || n == 0x202F
    || n == 0x205F || n == 0x3000

def isBlank (text : String) : Bool := text.toList.all isSpace

def validate (config : Config) : Except Fault Unit :=
  if isBlank config.realm then
    .error (.invalidInput "Cache namespace must not be empty")
  else if config.statics.keys.any isBlank then
    .error (.invalidInput "Static dataset names must not be empty")
  else
    .ok ()

def staticKeys (config : Config) : List Key :=
  config.statics.entries.map fun entry =>
    ⟨entry.1, Arguments.effective entry.1 config.runtime entry.2⟩

end Config

end DatasetCache
