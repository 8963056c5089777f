import Wheelwright.CommandLine
/-!
# Writing command lines

A request can be written as a command line: one item for everything it says, and one argument for
every item, the value attached with `=`. A value that does not look like an option may be an
argument of its own instead.
-/

namespace Wheelwright.CommandLine

/-- A long option as it is written. -/
def longOption (spelling : String) : Bytes := dash :: dash :: Utf8.encode spelling

namespace Item

/-- An item as one argument. -/
def argument : Item → Bytes
  | .value k given => longOption k.spelling ++ equalsSign :: given
  | .switch s => longOption s.spelling
  | .verbose => longOption Meaning.verbose.spelling
  | .help => longOption Meaning.help.spelling

/-- An item with the value, if it has one, as an argument of its own. -/
def separateArguments : Item → List Bytes
  | .value k given => [longOption k.spelling, given]
  | item => [item.argument]

/-- Whether the value may be an argument of its own: it does not begin with a dash, or is nothing
else. -/
def isSeparable : Item → Bool
  | .value _ given => given.head? != some dash || given == [dash]
  | _ => true

/-- The ways to write an item. -/
inductive WrittenAs : Item → List Bytes → Prop
  | attached (item : Item) : WrittenAs item [item.argument]
  | separate {item : Item} (h : item.isSeparable = true) : WrittenAs item item.separateArguments

end Item

/-- The item for an option with a text, if there is one. -/
def textItem (k : Key) : Option String → List Item
  | some s => [.value k (Utf8.encode s)]
  | none => []

/-- The item for where the platform tag comes from. -/
def platformItem : PlatformChoice → Item
  | .explicit tag => .value .platform (Utf8.encode tag)
  | .detect => .switch .autoPlatform

/-- The item for where the long description comes from. -/
def descriptionItems : Option LongDescription → List Item
  | some (.inline text) => [.value .longDescription (Utf8.encode text)]
  | some (.readme file) => [.value .readme file.bytes]
  | none => []

/-- The items that say a request. -/
def requestItems (r : WrapRequest) : List Item :=
  [.value .name (Utf8.encode r.name), .value .version (Utf8.encode r.version),
    .value .binary r.binary.bytes, platformItem r.platform] ++
    (r.outputDir.map fun dir => Item.value .outputDir dir.bytes).toList ++
    textItem .entryPoint r.entryPoint ++ textItem .description r.description ++
    textItem .author r.author ++ textItem .license r.license ++ textItem .url r.url ++
    descriptionItems r.longDescription

/-- The item for a switch, if it is on. -/
def switchItem (s : Switch) (on : Bool) : List Item := if on then [.switch s] else []

/-- The items that say an invocation. -/
def invocationItems (i : Invocation) : List Item :=
  requestItems i.request ++ switchItem .quiet i.quiet ++ List.replicate i.verbosity .verbose ++
    switchItem .trace i.trace ++ switchItem .json i.json ++ switchItem .noColor i.noColor

end Wheelwright.CommandLine
