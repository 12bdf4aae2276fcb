import AdLedger.Unicode.Marks

/-!
# Joiners

The joining types of characters, and where the two joiners U+200C and U+200D may stand in a label:
after a virama, or, for the first of them, between characters that it keeps from joining.
-/

namespace AdLedger.Unicode

/-- How a character joins its neighbours. -/
inductive JoiningType where
  | none
  | left
  | right
  | dual
  | transparent
  deriving DecidableEq

/-- The joining types other than `none`, by their place in the list of types. -/
def joiningRuns : Runs Nat := unpackRuns
    ["j504oIl34p864d8i14104114114104e2A41043031320030020030020430320C31630020130K4E130040221220F30",
    "H20b13002013082003002003002013012102064254214134012A23203F0400200402304203300208300200300200",
    "30020130020Q42020A30220E3012033002003012023012053c1A4PW13084904O34184124144I0204301200300209",
    "30020030220244031331020030125I23032430020037840930221020130120530020E31N41V4t104104474404364",
    "A14T04w104434804K14Q04214v104414414224304U14304B14v104444114404K14M54104w104204134804714B14U",
    "04z104C04o104304t104124524134714B14T04w104204604514K14S14v114434804K14T04e204724104w204264C7",
    "4Y304284B64f214R04104104t1D41441145A41Z14904c334154114214P14424G34D04214604F04_L24oT24T14U14",
    "U14W2141648042A4904f103324104Gu23C140X13004003r324414904624x614204w104164104104274694204m1j1",
    "42B4K34m104144104504e184C14W134214124u104114304124w174214u4241C4164404604314c6_14hG04214Q44n",
    "144554W3W14-_224j404W3V4gH34h314qkT34194W114m214m804304404P14504Jn13001n214QH4D04c174PA4k124",
    "m104234214d104Z254214214C04804l104p104124214514104g114804k704204404mvJ04XNF4GF4l604v724XG04Y",
    "704r444cq124114534e124404W443002102112201042033001043002023002202014433002m40300200302202300",
    "2013002003012003002N32013nA010W13002003034X244z914L02013113o154m1230020G31A4023002R330120B30",
    "34g103113022103012013002013103012003402003001r104s1E4f104214A24n134214704z124a144174-104C14q",
    "184A34204_224204114604204z404374L14v114304b164344c254D04104104E14r274224104N04q254104414114k",
    "734614114R14r274204114g304104254104b304104234144Z884114W814104404m434214404W194e154234804954",
    "224k1C4114c604124104f664154104o2L4264114114w354304114164104e214304104xA14B14q144504104N04rc5",
    "G46E4ecBB4324Wk244x164uW104_134n204ubJ14134yo4j142M4WH249F4264U34q424xz1s144n14804E04M441E4m",
    "g1641G4264114144a304W564tB04z134yF34-714p704204714504wE64f1Z23074rrbO04U_24W4l74"]

def JoiningType.ofCode : Nat → JoiningType
  | 1 => left
  | 2 => right
  | 3 => dual
  | 4 => transparent
  | _ => none

def joiningType (c : Char) : JoiningType := .ofCode ((joiningRuns.value? c).getD 0)

/-- The joining type of the first character that is not transparent. -/
def nextJoining (s : List Char) : JoiningType :=
  ((s.map joiningType).find? (· ≠ .transparent)).getD .none

/-- Whether a joiner may stand between the characters before it, nearest first, and those after. -/
def joinerAllowed (c : Char) (before after : List Char) : Bool :=
  before.head?.any isVirama ||
    (c = '\u200c' &&
      (nextJoining before = .left || nextJoining before = .dual) &&
      (nextJoining after = .right || nextJoining after = .dual))

/-- Whether every joiner of a label may stand where it does; `before` holds the characters already
passed, nearest first. -/
def joinersAllowed (before : List Char) : List Char → Bool
  | [] => true
  | c :: rest =>
    (!(c = '\u200c' || c = '\u200d') || joinerAllowed c before rest) &&
      joinersAllowed (c :: before) rest

end AdLedger.Unicode
