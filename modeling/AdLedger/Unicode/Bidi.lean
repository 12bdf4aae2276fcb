import AdLedger.Unicode.Packed

/-!
# Directions

The bidirectional classes of characters and the rule of RFC 5893 for labels of host names with
right-to-left characters.
-/

namespace AdLedger.Unicode

/-- The bidirectional classes that matter to labels. -/
inductive BidiClass where
  | leftToRight
  | rightToLeft
  | arabicLetter
  | arabicNumber
  | europeanNumber
  | europeanSeparator
  | commonSeparator
  | europeanTerminator
  | otherNeutral
  | boundaryNeutral
  | nonspacingMark
  | other
  deriving DecidableEq

/-- The classes other than left-to-right, by their place in the list of classes. -/
def bidiRuns : Runs Nat := unpackRuns
    ["08904B0D904B018027048005006005016094006058Q58Q38009X108037018108118108117418308308N08V08XE18",
    "7D82586185881G80_1A20A38A1VA508W408i46AW8082180071i1A00100A00101A00101A00100A8Q1451H18002017",
    "0020060020180AA0021j120KA09300701302200A0324y2206A10805A01201A00803A0120940J220200A0T20QA2u2",
    "20AA002Eg1108A01103800120A0N103A00108A00102A00104A2E11O102A2011A25V278A0f120NA1VAt10A10A47A4",
    "0A36AA1AT0Aw10A43A80AK1AE1770720A21Av10A41A41A22A30AU1A30AB1Av10A44A11A40AK1AD0785A10Aw10A20",
    "A13A80A71AB1AU0Az10AC0Ab15800700850A30At10A12A52A13A71AB1AK6820Aw10A20A60A51AK1AS1Av11A43A80",
    "AK1AT0Ae20A72A10Aw20A26A40777AY30A28AB6Af21AR0A10A10A038p11A10A54A10A12A11A55A13A13A13A13A13",
    "A1BA12A90Ac33A15A11A21AP1A42AG3AD0A21A60AF0A_L2Am198c308wK18r32AT1AU1AU1AZ26A80A2AA70710AI98",
    "6A8w31AY10As32A41A90A62A408318u4X18N1A20Aw10A16A10A10A27A69A20Am1j1A2BAK3Am10A14A10A50Ae18AC",
    "1AW13A21A12Au10A11A30A12Aw17A21Au42A1CA16A40A60A31Ac6_1AiG192081481B830882720823810814800601",
    "83C8168X2771O7EW1AJ08308B08218518308108108108407B08638538y1184X480050070N82082t782A8b2P81m48",
    "PA8W5WE81oA8W8h881c383a381s482V81e38b75842A768_30AW3VA0z28Y1P81381o28k8081183O893A208608528v",
    "21A508w208a6Z18y-6_18mqLs18cA28_23A00809A018U1Am21AEX18c308v30A30A40AP1A13800AB17w138i21AQHA",
    "D0Ac17APAAk12Am10A23A21Ad10AZ25A21A21AC0A80Al10Ap10A12A21A51A10Ag11A80Ap318v30A20A40AmvJ0Ap4",
    "W12hBH8W212s162008j128W1FAL18i102jK08-1i283C8308y20AY70A0Q4w34Aba1512011h111113012M11d21881m",
    "1I11115W113080P15Q1c1t114J12k1102A11A53A0311211S122A40A0817817_11W1a1101A4B19r113680L12Q15P1",
    "731C61m2e21t3o117510Z1203A8936F1P4A0N1811m6U31f1111A001211G52882X15A0d118L20AA082MH103A031c1",
    "R1KM1A0As1EABJ8A0A21AA2An13A21A70Az12Aa14A17A-10AC1Aq18AA3A20A_22A20A11A60A20Az40A37AL1Av11A",
    "30Ab16A34Ac25AD0A10A10AE1Ar27A22A10AN0Aq25A10A41A11Ak73A61A11AR1Ar27A20A11AVC8-10A10A25A10Ab",
    "32A23A14AZ88A11AW81A10A40Am43A21A40AW19Ae15A23A80A95A22Ak1CA11Ac60A12A10Af66A15A10Ao2LA26A11",
    "A11Aw35A30A11A16A10Ae21A30A10AxA1AB1Aq14A50A10AN0Aw3780370G8kY50A6EAecBBA32AWk24Ax16AuW10A_1",
    "3Al20810AubJ1AXp4j1A2MAWH2AH7A26AU3Ax118LX2802A008w5s28fr1s1A4n1A80AE0AM4A1EAmg16A1GA26A11A1",
    "4Aa30AW56AtB0Az13AF07iF3A-71Ap70A20A71A50Ag8a6128106Ah2X1106A001491411nOZ22i2y12oD18k8h184Z3",
    "8CE82E81E81a18L48V08z128z108o558w4tU84G83C83s384-286B8408FB84t188986d188T8218k2pA8CD82C83887",
    "j181688D84887887o481s18"]

namespace BidiClass

def ofCode : Nat → BidiClass
  | 0 => leftToRight
  | 1 => rightToLeft
  | 2 => arabicLetter
  | 3 => arabicNumber
  | 4 => europeanNumber
  | 5 => europeanSeparator
  | 6 => commonSeparator
  | 7 => europeanTerminator
  | 8 => otherNeutral
  | 9 => boundaryNeutral
  | 10 => nonspacingMark
  | _ => other

/-- Whether a character of the class makes a host name one of mixed direction. -/
def isRight (b : BidiClass) : Bool := b = rightToLeft || b = arabicLetter || b = arabicNumber

/-- Classes that may stand anywhere in a label of either direction. -/
def isNeutral (b : BidiClass) : Bool :=
  b = europeanNumber || b = europeanSeparator || b = commonSeparator || b = europeanTerminator ||
    b = otherNeutral || b = boundaryNeutral || b = nonspacingMark

end BidiClass

def bidiClass (c : Char) : BidiClass := .ofCode ((bidiRuns.value? c).getD 0)

/-- Whether a label keeps the rule for directions: its first character fixes one, the others belong
to it, and its last character but for marks is a letter or number of it. -/
def keepsBidiRule (label : List Char) : Bool :=
  let classes := label.map bidiClass
  let ending := classes.reverse.dropWhile (· = .nonspacingMark)
  match classes with
  | [] => true
  | .leftToRight :: _ =>
    classes.all (fun b => b = .leftToRight || b.isNeutral) &&
      ending.head?.any fun b => b = .leftToRight || b = .europeanNumber
  | first :: _ =>
    (first = .rightToLeft || first = .arabicLetter) &&
      classes.all (fun b => b.isRight || b.isNeutral) &&
      ending.head?.any (fun b => b.isRight || b = .europeanNumber) &&
      !(classes.contains .europeanNumber && classes.contains .arabicNumber)

end AdLedger.Unicode
