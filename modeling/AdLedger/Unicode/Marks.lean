import AdLedger.Unicode.Packed

/-!
# Marks

The characters of the general category Mark, which combine with the character before them, and the
canonical combining classes that say how marks are ordered.
-/

namespace AdLedger.Unicode

/-- The characters of the general category Mark. -/
def markRuns : Runs Nat := unpackRuns
    ["WOl31p861d8i11101111111101e2A1m1K1G01b361251211131Z101UQ1x2A1w181901O31181121141h121x181g1N1",
    "1W11s1211H1161A11T21u101161211221901A11Q01221u101141411221301U11301B21u101171121121K11M51121",
    "u101161211221721A11U01x141321131901e141t101161121131711B11T21u101161121131711B11F01C31t11116",
    "1121131901A11T21c201451101171I11z101261C71Y301281B61f211R01101101411n1J11115A11Z11901a3J1N31",
    "421121261331DB1101A31_L21oT31S21T11U11W2V1901j121101r311Y101s3B14B1x641v1911S1201m1j112B1K41",
    "l1G1c181C21UC1u1D1m1J1u4211K1401601221c6_11mMW11-_221j401W3V1gH51f311qkT31191W111m211m801301",
    "401N41401p211o1H1QH1D01c171PC1i131l1D1a101Z2D1C01811j121o101121211511101f141511i771111mvJ01X",
    "NF1GF1jU01Y701r441cq121111531e121401b511zH31X241z911j251c2A1n131w321r1E1f101211A31j1A1701z12",
    "1a1D1G11i101C21m1D1831111y2B1601201z4B1L31t111161211221901A11261341Z281101201131141101E11o2H",
    "1N01n2J1h761281R11o2G1g3C1b3E1W8E1r751111231101111j461261301S91e1611318019A1k1F1c671d671171o",
    "2L11D1w351301111161101Y241111141xA31911101m161341N01bd5016E1ecBH1Wk241x161uW1011s11731n201B1",
    "1hbJ11Xp4j112M1-G41351871261U31q421xz1s114n11801E01M411E1mg1611G1261111141a301W561tB01z131yF",
    "31-711p701201711501wE61j361rzbOl71"]

def isMark (c : Char) : Bool := (markRuns.value? c).isSome

/-- The canonical combining classes other than 0. -/
def combiningRuns : Runs Nat := unpackRuns
    ["WOKc700e703y600e700u604y601g603y601g60Ay604103y607c700m700c702y602c701y612c703y600c700e701y6",
    "00c700f701g700f701g700f70Cc7p84c7f80y603c700y602c700-600y605c705y601c700y601c700-600a700c700",
    "A00B00C00D00E00F00G00H00I01J00K00L00M10N10O00P10c700y610Ie27c700U00V00W1m10R00S00T00U00V00W1",
    "00X100Y101c701y604c700y601c700y6G0Z1b36c723c700y600c721c710y601c700y6Z10a1U0c700y601c700y601",
    "c702y600c701y600c700y602c700y600c700y600c700y600c700y601c7W56c700y600c790y6O3c718c712c714c7h",
    "12y6x11c702y603c7g14c704y60Dc710y601c700y601c700y602c702y600R00S00T02c700y601c701y604c7y107G",
    "0930c700y601c7d307G09m10c7z107G09k307G09k307G09_309k307G0970q200x2b307G09j319G09y309j31d3009",
    "D3h3i31s3009D3w3i21y6R0y610y610u6t10X400Y410a453Y420Y411c700911c7-10y6m307119o20y6lM2c7qT19U",
    "09z409A0c7h60a7l40-600c700y6x60c700y6d209K7c720y6m14c705y601c700y611y601c701y604c700y60Hc700",
    "y625c700y603c700g7e207F09c10c700y606c7s119w107B19Z207u42c710104y601c703y600c716140y660c731c7",
    "c61c700y606c700y601c700g700s600y600g60a1c700e701a700y600w600c700f700y600c700y6mM1c701103c702",
    "101c740c731100c700y600c701103y600c7-_22c7j409W3Vc7gH0w600a700e700-601W7f318qkT0c749c7W11c7m2",
    "1c7q809b109t409RHc7v12y6b109_207C09l70c711c700y621c751c710c7q109s709mvJ0QXO6c706y601c7jU0y6Y",
    "70y6r44c7oq10y610c7e10c700100y6409b50c700y6zH3c7X24c7z91c7j21y612y6c21y602c700y600c703y6n10c",
    "700y600c700y6W609f109E09v109007b22c7m119-107i209907g309007o507009m217G09O6c734c7v229n309307N",
    "0c7Z309007x709007-309s309007p309j809007Y819407y409p209I09n209bD09Y807119n209fD19ilG09Wk241x1",
    "6c7vb116ibJ01cc51u602130Y704u687y624c701y6U3c7q42c7xj36c71Gc726c711c714c7a30c7W56c7tB0c7z13c",
    "7yF1e700y600c7-70c700y6p70c720c771c750c7wE6y6j35c7007"]

def combiningClass (c : Char) : Nat :=
  if c.toNat < 0x300 then 0 else (combiningRuns.value? c).getD 0

/-- Whether a character is a virama, which joins the consonants around it. -/
def isVirama (c : Char) : Bool := combiningClass c = 9

end AdLedger.Unicode
