import AdLedger.Unicode.Packed

/-!
# Mapping of host names

What becomes of each character of an internationalised host name: it is kept, left out, replaced, or
not allowed. Capital letters, full-width forms and other variants are replaced by the plain ones.
-/

namespace AdLedger.Unicode

/-- What becomes of the characters of a run. -/
inductive HostRule where
  | kept
  | ignored
  | disallowed
  /-- Each is replaced by the one at a distance. -/
  | shifted (distance : Int)
  /-- The first and every second one after it is replaced by the one at a distance, the others are
  kept. -/
  | alternating (distance : Int)
  /-- Each is replaced by the same characters. -/
  | replaced (characters : List Char)

/-- Takes the numbers of a sequence of characters, each given by its distance from the one before.
-/
def takeCharacters (count before : Nat) (ns : List Nat) : List Char × List Nat :=
  match count, ns with
  | count + 1, n :: rest =>
    let c := (before + signed n).toNat
    let (more, rest) := takeCharacters count c rest
    (Char.ofNat c :: more, rest)
  | _, rest => ([], rest)

/-- Takes a rule off the front of a list of numbers. -/
def takeRule : List Nat → Option (HostRule × List Nat)
  | 0 :: rest => some (.kept, rest)
  | 1 :: rest => some (.ignored, rest)
  | 2 :: rest => some (.disallowed, rest)
  | 3 :: distance :: rest => some (.shifted (signed distance), rest)
  | 4 :: distance :: rest => some (.alternating (signed distance), rest)
  | 5 :: count :: rest =>
    let (characters, rest) := takeCharacters count 0 rest
    some (.replaced characters, rest)
  | _ => none

/-- Reads runs that follow each other without a gap, each given by its length and its rule. -/
def unpackRules (fuel next : Nat) (done : Runs HostRule) (ns : List Nat) : Runs HostRule :=
  match fuel, ns with
  | fuel + 1, length :: rest =>
    match takeRule rest with
    | some (rule, rest) =>
      unpackRules fuel (next + length) (done.push ⟨next, next + length - 1, rule⟩) rest
    | none => done
  | _, _ => done

/-- The rules for all characters. -/
def hostRuns : Runs HostRule :=
  let ns := (numbers
    ["X20Q3W2b10W1213_770152W2mk11013n4201110152W2ek12023_7152W2Yk113km120152W2km113l813r410153Y3c",
    "XG_WG153Y3cXGZXG153c3YXG_WG10N3W21073W2X10m142152o6yf110252o6244210642252u6s4842152uh1xa1k14",
    "213n764213tG1013aD44213yC1321023wC1322013-413qC13sC1321013wC13-C1013cD13YD1323013cD13gD1013i",
    "D64213qD1321013qD201321013qD1321023oD44213sD1323013270352e6qH352u63352y67G4210I4210352e6i113",
    "21013X613l3e14213Z810I426013sYL1321013bA13mYL201321013bC13g413k4A42W3013la113r413la113Xa113r",
    "313p313f313_Z113zZ1V0152W2ik1152W2kk1152W2qk1152W2mm1152W2ck1152W2sk12013v713fd113zc113rc113",
    "z4x2023_31013_2152mm1D13e79011W1044213rB101321022152W2ov13013bq113e742152W2Yk1153W2mk1D13i21",
    "3_i133g21213W41223-310H3W21293W2Z1013G13x113n113P13B13H13T13h110O4213h313_213z21013t313_3101",
    "321013h31322033Z8G3W5W13W2m10Y14280s14213UE4210W34212c13W322k10152gs2w130223012t1082R04260H2",
    "M012u20152kY3w4152ma3u2152ki3b5152qa3q2a3012m1022x1022b30E2x1022n1022F012S0221012B052W1072h2",
    "012r30152gn4k2152in4i2152kn4g2152un4W2152Yo4s1152ao4q1152so4Y1152-o4Qa101280222022M012701210",
    "3240229022202240821042152Yw4s1152aw4q112152-w4Q4022P022301260422022M012701210152aZ5K1210152m",
    "Z5812202210125042202230321072152iX5i2152kX5g2152uX5W21012152sY5Y172H0A2301290123012M01270122",
    "0125022A0123012302210F24022C0727012301280222022M0127012201250229022202230723042152Yo5s1152ao",
    "5q1125022I0A2201260323012403220121012203220323032C042503230124022106210E2L052D0123012N012G02",
    "29012301240722012301220224022A072M0123012N012A0125022901230124072205230124022A01230C2D012301",
    "2p101230126042G022Q0123012I032O0129012102270321042601210128062A02230C2o10152wa7r17042T0b1220",
    "1210125012O0121012C0152wi7r1A022501210127012A022152sg7Z1152sg7J20W12C0131s10152aq7g740124015",
    "2uq7s640152Yr7i640152ir7Y640152sr7u5C0152Wq7g7304220152Yt7210152Yt76152ax7Z3153ax7X4U152cx7b",
    "3153cx7Z4U70152Yt7UH0152av7g2401240152uv7s140152Yw7i140152iw7Y140152sw7OC0152Wv7g23012F012D0",
    "b12W50c13WcE1213WcE5213WcE22i1013_1Y3021e70124022701210124022f10124022X10124022701210124022F",
    "012v10124022Z2022W1032Q062s202263F22WK012S032v2072M092O092K0C2D012301220C2q1021e1022A062A062",
    "B051A062v2072h1052c20A2V012C042C0421032g102250B2i1042Q062B032-1022X2012T022B062A062E022k1022",
    "C0K2j2012c5082y1032F032p1013xaC13vaC13daC23ZaC13baC13tZC13dYC13cya21321052h13_x52233_x58082h",
    "1052i1013riE13jaE13tiE1023tiE13frD83tiE1013viE13pnD13xiE13viE23tiE13riE13ZkE23dlD13d413fkE23",
    "dkE13XlD23_kD13hkE1013dkE13bkE13hWE13bkE13zlD23x313hkE23bkE13t313rkD13fkE13j333rwC23pvC13nlE",
    "13XlE23zkE23dxC13jwC23bwCD013rpCY1013nqD13npE13lqD13xgE13bqD13ppE13ZqD13XqD13xpD33tpD13t213r",
    "mD13tpD13f213tmD13rpD13vpD43tpD13ppD23XpD13pWE23voD13t923xoD13XqE33toD13jWDW20s44240152Y6wb1",
    "13p32013zxE10W3428083F602263F228083F8083F602263F22801213F1213F1213F1213F8083F1013fyD1013hyD1",
    "013jyD1013lyD1013vwD1013xwD1013zwD22152WmFjqD152YmFlqD152amFnqD152cmFpqD152emFrqD152gmFtqD15",
    "2imFvqD152kmFxqD152WmFjqD152YmFlqD152amFnqD152cmFpqD152emFrqD152gmFtqD152imFvqD152kmFxqD152W",
    "oFjsD152YoFlsD152aoFnsD152coFpsD152eoFrsD152goFtsD152ioFvsD152koFxsD152WoFjsD152YoFlsD152aoF",
    "nsD152coFpsD152eoFrsD152goFtsD152ioFvsD152koFxsD152WsFjwD152YsFlwD152asFnwD152csFpwD152esFrw",
    "D152gsFtwD152isFvwD152ksFxwD152WsFjwD152YsFlwD152asFnwD152csFpwD152esFrwD152gsFtwD152isFvwD1",
    "52ksFxwD20152WtFjxD152Yx1G152uw1Q1210152ixFv_D23F13p413zWE152Yx1G152W2cl113fWE152W2cl1152W2a",
    "o1153W2mk1q3152etFrxD152kx14152yw1M1210152iyFvWE13h513tXE13h513vXE152kx14153W2cl1b1153W2cl1Z",
    "1153W2cl1-23013baE222023F13d613tYE12153W2el1d1153W2el1b1153W2el1y23013bZE4023F13_613xXE13D15",
    "3W2mk1F153W2mk1D13zuF22152utFbyD152oy1V152yy1f11210152i_FvZE13_713vYE13x713vYE152oy1V152W2Yk",
    "1152W2el112B51W21120221013150152W2cn1C032107213zWG30152aZG0153aZG0010152gZG0153gZG0040152Y20",
    "10152W2gk180152-30152-3x1152Y2y1D0154aZG0007013zZG51526113_ZG13lWG2263_ZG13zaG13kP13zZG23fbG",
    "13XXGA3_aG13zbG13kO13zaG23fcG1213zYG13tYG13bYG13rXG13rZF13vYG43rYG13pYG23lYG3280152a72P0E2X1",
    "0F2153Y6Z3e3153Y6Z3e413zfG152WBv410153c6d3W4153c6d3i413tgF10152WBp423bgG351m613l-F251o6251u6",
    "1013jgG152y622033ngG251a720152c7B153e7TE152e7D1013pgG1013vrE1013xgG1013zhG13haG23piG10251g61",
    "3riG13u113hiG13fiG43fsD13_iG10153i69k113ttE251cx113ztE13YD40251e613ZkG23zjG60153Y3cXGvWG153Y",
    "3cXGrWG154Y3cXGbXG1153Y3cXGXXG153a3aXGXXG153Y3cXGzWG153a3aXGzWG153c3YXGzWG153e3WXGzWG153Y3cX",
    "GxWG153g3-WGxWG153Y3cXGtWG153c3YXGtWG153g3-WGtWG153k3wWGtWG152Y3cXG13jlG152o60153o600152o6Q1",
    "3xkG152i7P153i7P0154i7P00152o6U13XlG152m7T153m7T013_lG23pmG13ZmG13jmG152o60153o600152o6Q13xl",
    "G152i7P153i7P0154i7P00152o6U13XmG152m7T153m7T013_mG23pnG13ZnG3013250153W3eXGXXG2042y40152sYH",
    "0153sYH0010152yYH0153yYH00u7023-j6_70M2B0L293zYI152Y31152Y30152Y32152Y34152Y36152Y38152Y3A15",
    "2Y3C152Y3E152Y3G152a33153m2IF153m2KH153m2MJ153m2OL153m2QN153m2SP153m2UR153m2W1T153m2Y1V154m2",
    "I1D154m2I0F154m2I2H154m2I4J154m2I6L154m2I8N154m2IAP154m2ICR154m2IET154m2IGV154m2K3DK2153m2o3",
    "l3153m2q3n3153m2s3p3153m2u3r3153m2w3t3153m2y3v3153m2-3x3153m2W4z3153m2Y4_3153m2a4X4153m2c4Z4",
    "153m2e4b4153m2g4d4153m2i4f4153m2k4h4153m2m4j4153m2o4l4153m2q4n4153m2s4p4153m2u4r4153m2w4t415",
    "3m2y4v4153m2-4x4153m2W5z4153m2Y5_4153m2a5X5Q3fbIQ3zcI13phIXf10154sYH000d30153q306152w30153w3",
    "00b30152wjLfwJt4022g40m13W3m101321013j_K13hk713j-K2064213tXL13v_K13zXL13xXL10132201326013ZXM",
    "13jWM23zZLa34270442301321052j101210521022u107213R10E2O09270127012701270127012701270127012-30",
    "Y12Q0124013yoUp2013ugu1C213WmF13koF13epF13upF13grF13WuF13iuF13ovF13axF13iZH13sbH13WcH13idH13",
    "oeH13wfH13YjH13gkH13-kH13ouH13i-H13YWI13gWI13aYI13qYI13eaI13WbI13mcI13sfI13ugI13iiI13oxJ13WW",
    "K13syK13Y-K13m-K13a_K13cWL13yaL13qYM13obM13WjM13ikM13mlM13wmM13aqM13eqM13wgN13ihN13YiN13wiN1",
    "3WqN13kqN13sqN13-xN13myN13ezN13szN13kXO13kYO13mZO13keO13siP13mlP13umP13--Q13c_Q13gaR13ebR13W",
    "cR13edR13qfR13yfR13mwR13-xR13yzR13gzT13iXU13uYU13gcU13udU13eeU13qeU13whU13YiU13WkU13inW113ej",
    "X113-jX113ckX113ikX113wkX113ylX113-lX113-qX113iYY113qYY113utY113guY113ixY113uxY113eyY113syY1",
    "13gYZ113sYZ113ymZ113enZ113eqZ113erZ113auZ113yca113eda113eea113qya113kab113uab113Ymb113krb113",
    "eub113wlc113Yuc113yxd113mzd113WXe113aae113gee113-ee113efe113ehe113-le113mme113Ycf113kcf113-c",
    "f113kdf113ief113eff113kff113gkf113mkf113wkf113Yih113yjh113ahi113whi113cji113w-i113o_i113-Zj1",
    "13ucj113agk113Whk113yhk113Wkk113emk113qyk113gzk113kXl113yml113uol113u_l113WXm113eXm113-km113",
    "iwm113aYn113kYn113sYn113Wzo113mzo113cdp113ump113ymp113upp113ewp113Wxp113cxp113oxp113qXq113sZ",
    "q113Waq113waq113clq113goq113moq113yzq113W-q113a_q113wkr113unr113aor113ksr113Wtr113atr113str1",
    "13mvr113aos113Yht113qht113-jt113elt113slt113emt113kmt113yot113Ypt113Yqt113gqt113Yrt113sst113",
    "ott113Wut113qxt113myt113syt1g1213_zN1013dzNp1013d21013omH23smH5012s202220152W2odO152W2qdO201",
    "52meO4_20152chOg152h101223XZG13nuF13ZZG23nuF33dZG63puF13hYG33rZG13bYGA3tZGL3x-F1123XbG23_vF1",
    "3vvF13tvF13lvF13fvF13dvF13ZbG13ZvF13XvF23dbG13bbG23ZbG13zaG13xaG53vaG13raG13laG13zZG13nZG13f",
    "ZG23XvF33vYG23bWG13XWG23n_F13l_F13z-F13v-F122013ycE13olE13gdE13iqI13edE13ifE13cdE13ovX113-hE",
    "13ydE13gcE13uuJ13avI13snEc20A2G0153m2mj8jj8153m2qj8nj8153m2sj8pj8153m2wj8tj8153m2yj8vj8153m2",
    "-j8xj8153m2Yk8_j8153m2ck8Zk8153m2ek8bk8153m2ik8fk8153m2kk8hk8153m2mk8jk8153m2ok8lk8153m2qk8n",
    "k8153m2mzr2jzr2153m2Wdu2zcu2153m2uhv2rhv2153m2erx2brx2153m2Wwy2zvy2153m2u-z2r-z2153m2eeW3beW",
    "3153m2unY3rnY3153m2msZ3jsZ3153m2WWc3z_b3153m2uad3rad3153m2mfe3jfe3153m2ekf3bkf3153m2Wpg3zog3",
    "153m2eja3bja3154m2u_Y3WUrzZ3154m2u_Y3Wg8rfh312153m2mzc1jzc1153m2ecd1bcd1153m2Y-c1_zc1153m2ch",
    "h1Zhh1153m2ucd1rcd1153m2gqe1dqe1153m2szc1pzc1153m2cqe1Zqe1153m2gZd1dZd1153m2onf1lnf1153m2Wkp",
    "1zjp1153m2cau1Zau1153m2uWs1rWs1153m2Wmp1zlp1153m2owe2lwe2153m2klh1hlh1153m2wxo1txo1153m2aWq1",
    "XWq1153m2Ykp1_jp1153m2iny1fny1153m2g-f1d-f1153m2Ybv1_av1153m2odc2ldc2153m2gpy1dpy1153m2uef1r",
    "ef1153m2shd1phd1153m2ebg1bbg1153m2ypj1vpj1153m2shx1phx1153m2ojd1ljd1153m2-fc2xfc2153m2uof1ro",
    "f1153m2gqy1dqy1153m2okd1lkd1153m2ayW2XyW2153m2syW2pyW213smH13kZM13YqP13mqa180153W78T152a3115",
    "2a30152a32152a34152a36152a38152a3A152a3C152a3E152c35152c33152c31152c30152c32152c3413_rG23zrG",
    "33xrG13vrG23trG53rrG13avy113oY_113edW213smY213irZ213Ywa213mZd213-if213qng213Yxi213u_j213kal2",
    "13afm213wjn2152mZc3lrF152ula3dQ13aZg21013WuD13sWE13kuD13mbI13WXE13mkF13wtD13ekF13gzD13mhG13y",
    "dQ13W-U13mwS13sfQ13cql113WfI13grP13ovQ13kdQ13sgZ113otG13e-V13sWj113iiZ113uXG13-pZ113wfX113mj",
    "J13wyk113weF13ajG13oaT13gso113WdE13klF13WiS13isD13muD13gsD13-pL13sqG13afG13wkK13shK13kZY113e",
    "bE13oXj113ggG13ucJ152c36152c38152c3A152c3C152e37152e35152e33152e31152e30152e32152e34152e3615",
    "2e38152e3A152g39152Y3kjp1152a3ijp1152c3gjp1152e3ejp1152g3cjp1152i3ajp1152k3Yjp1152m3Wjp1152o",
    "3-ip1153Y31mjp1153Y30kjp1153Y32ijp1152m61153g6QL152g6Y1153u6GV13xY113vY113tY113rY123pY113nY1",
    "13lY113jY113hY113fY113dY113bY113ZY113XY113_X113zX113vX113tX113rX163pX113lX113hX113dX113ZX153",
    "_W113zW113xW163vW143tW1152ekd1mw2154agO-2s2d3154agOo4h1d3154agOY5n1l3153agOq5X1154egOk2m2b41",
    "53egO-4Z3153igO6q4155mgOY1Jw4b3154mgOe5X5Y5153qgOo4p3153qgOa5t1153sgODi4154sgOy3h2A154sgOa45",
    "a1153ugOY4C153ugOk4f1152ygO3153ygOw1Y3154wgOm3Aa1154ygOw3r2u3152wgOW4155wgOW4v3o3H156wgOW4Ns",
    "1d3c2155wgOW44t2A153WhOo3H155WhOo3Hl1s2155-gOu3z2l1o4154-gOy3Uz2153YhOs4b4153chOm3X2153chOo4",
    "z1154ghOX1Mu3155ghOy3Z3s3t1154khOc3Ib4153shOm3Z3153shOm3r2153WiOu3b4152kiOV152oiOa2152miOs21",
    "52qiO8153yiOLA153-iOr2W2155YjOs2X4m3r2153YjOs2l3154WjOu2V1155ejOZ3k1Uc2153ejOf2u3152ejOX2152",
    "cjOm1155gjOd3m4h2C154gjOZ3o5d3155ijOb1NVe4153gjOe1K155mjOn2W1w3X1152qjOv1153qjOTE153mjOc1j21",
    "53qjOo1p3153qjOa2d4153ojOc2v3154wjOn3-4r2153ujOUb2152sjOm1153wjOi1p2153sjOY2X1153sjOY2H154yj",
    "Op3My3153yjOp3k4153yjOr1O153yjOQt3155yjOg1t3W3O154-jO_2y3C152-jOM155-jOMp1u2X1152YkOf3154YkO",
    "f3u1s2154YkOs1d3c2153ekOm1b3153ekOm1X1153ikOd4Y5154qkOj2Ac2152qkO1153skOj1m2154skOY1h2g1152u",
    "kON155ukOEr2h1Y4153-kOt2A152W3oeu1152Y3meu1152a3keu1152c3ieu1152e3geu1152g3eeu1152i3ceu1152k",
    "3aeu1152m3Yeu1152o3Weu1153Y31oeu1153Y30meu1153Y32keu1153Y34ieu1153Y36geu1153Y38eeu1153Y3Aceu",
    "1153Y3Caeu1153Y3EYeu1153Y3GWeu1153a33oeu1153a31meu1153a30keu1153a32ieu1153a34geu1153m6GT152e",
    "65152Y6e1153a61Y1152-6E152W7P152e6I153e6Ir3153e6Ip3152o6O152cdl1wv1152wYp1Xw8152koi1uZ9152yW",
    "p1wg3154qYq1rn4f_7eYL152W7T152y6P152ux1rr1152w6N152s6J152s6H152w6L152k69153c63M154s6F3M152W7",
    "J152y6F152ux1hr1152ux1fr1152w6B152s67152m6a1153s65a1153w69a1153k62a1153e7Na1152ux1_q1152w611",
    "52e6G152s62152i6E152y61152ux1zq1152w60152c6K152s64153w60r3153c6Kr3152w6r3153s64r3153w60p3153",
    "c6Kp3152w6p3153s64p3153w6mwGZwG154w6mwGZwGX4152W7T153s6AT153w66T153k6IT153a7X16155a7X16YxGZw",
    "G156a7X16YxGZwGX4152W76152y6A152ux1nq1152w6C152W7C152y6G152ux1hq1152w6I152s6M152w6I152W7E152",
    "y6I152ux1fq1152w6K152s6O152w6K152s6yr1152w6ur112152a6U152c60152c62154c6axGpwG712152e63152k6a",
    "1152m6D152m6G152o6A152s60152s64152s6I152u62152u64153u66F152u6O152w6L153w676153w645152W7F1215",
    "3W705152W74152c71152c76152k7f1153i7-vGlwG153Y6exGlwG152Y3exo1152a3cxo1152c3axo1152e3Yxo1152g",
    "3Wxo1152i3-wo1152k3ywo1152m3wwo1152o3uwo1153Y31gxo1153Y30exo1153Y32cxo1153Y34axo1153Y36Yxo11",
    "53Y38Wxo1153Y3A-wo1153Y3Cywo1153Y3Ewwo1153Y3Guwo1153a33gxo1153a31exo1153a30cxo1153a32axo1153",
    "a34Yxo1153a36Wxo1153a38-wo1153a3Aywo1153a3Cwwo1153a3Euwo1153c35gxo1153c33exo1153k6BMjaS032t1",
    "092yA0K2k142I0S4213Zbn213Xbn2w2082Y10E4220-1421318044213dWb2A42301321013loo22044220K4213dqo2",
    "13zqo213rqo213Xqo213dqo21013Zno213poo213fno213Ww1G4213_213bqo213lZb244213jso2G4213Xap2K213xt",
    "p213zup213vup213bup21322013Xjp213hgp2p1032A062u1082c2082C062q30B2U032k2012B042X1012t1092E022",
    "A022d30O2S0A260226022609270127012i1013fZ213h213blq213P9013tjq22042m23_yh2k1022A062azA0C2N042",
    "n10ae8213lhs113vWf213lZr113rZs113bZb213bjr213Xoo2251uvl213lxl213npp113dun213dyl213jnh213fgX2",
    "13puy113Xjv113jru113pXu113deq113Znd213p_b213vZa213npY213rjw113zwp113nol113nfr213jwo213nXd213",
    "bmZ213Zlv113Zmj113Xzj213jpa213hrv113_xt113tbh213xqx113lmu113xbj213ZXf213_xb213zYZ213xbq113jw",
    "q213jtp213Xbp213tcg213xbd213ZoZ213taX213bpy113zov113pjv113lqr113hWn113pyk113_pj113zgW213vx_1",
    "13vvz113ftw113rZp113Xij113rct113bcm213zZj213dk-113jiy113dkZ213vdW213hes113Zbn113Zdm213nkk213",
    "npd213btb213zZb213_X-113nnz113hmn113_dp213liy113ltp213nup213pp_113nvz113jsw113dkn113pzs113te",
    "h213prd213zbt113for213ltk213xqi213pzY213Z_X213tap213ncW213hwq213vxi213prr213tfc213X_f213la-1",
    "13lwo213xmm213tcX213fow113fit113hxc213Xyq113pkc213fdh213zex113fzg213XXY213nir213zWq213_wp213",
    "nle213df-113vmx113rgt113zwp113pep213xpo213xWm213hfj213xxf213hua213rbW213nzn113vnl113Xlj113rh",
    "j113zkp213fif213fXd213rYr113pnj213z_h213_uh213jlg213zcb213paa213rmY213ry_113Zwz113loy113Zdr1",
    "13rgw113jtq113Xbp113fup213plp213Xko213jja213xju113jlt113njj213xwi213nYh213j_c213ls-113ZZZ213",
    "dir213_gn213byk213X_j213_ui213r_Y213fqY213fXz113psy113vtp113thn113rcn113tvm113pYr213lWW213bW",
    "q113_ln113lji213dpr213Xkq213xyk213xtk213fYg213vxd213Z_Z213ztX213hiw113jqq113jZj113vpf213lvn1",
    "13xpp213vaf213hze213nec213zob213byY213ddY213bsW213zh-113Ztm113dcq213dwh213rrn113nwq213thk213",
    "t-b213vgr113vaj213ffi213bye213dbZ213hrn113dxp213zyo213ptk213vyf213bff213ppe213xlc213xzY213bW",
    "Y213vcz113lnu113jmu113vXq113lmn113tgp213Zpb213_yo213xXa213jrY213h_v113xqn113rvk113drj113vbf2",
    "13pYc213xWy113to_113lj_113js-113ppZ213Zsa213dgt113vpr213lix113fyp213n_p213rrj213zoh213vo-113",
    "zdl213jkc213Zrf213tir113txu113txn113zdu113lpj213tiq213vao22013hxm21013xvf22013jZq213tkZ213vq",
    "X213tjW213rhW213fhW213teW213hin113zr-113Xcz11013xWw11013pot12013v-q113noq13013rpm113zom113dm",
    "m113ndk113_qq113ltn113Zer213pqq213fkq213psp213_qp213dkp213nfo213XZo213_yn213n_m213Zvm213jzk2",
    "13xyk213nwi213hji213Xhi213xai213Zlg213_bg213Zxf213zxe213xic213tYc213fob213pja213xXa213lYZ213",
    "pxW213xmW213dmW213hmW213zlW213plW213dlW223fiW213dXW213dz_113hf_113bc-113za-113lX-113lkz113hb",
    "z113zcy1251odX213lWx113_qu113riu113Xst113pot113Xvs113vrs113_gr113zYr113fun113pcn113zYn113h_i",
    "213aea513fby12213pas213thq213pmq213blr213zoq213flq213zwp213vtp213rjo213doo213Xko213nfo213ZYn",
    "213pym213ppm213rom213xXm213nrl213_wj213pwj213rnj213ljj213xwi213npi213_ti213rli213poi213nfi21",
    "3lbi213nih213Zdh213vZh213ppg213vXg213rtf213ltf213xpf213tnd213tjd213hrc213vxb213xyb213ltb213v",
    "db213xoa213hlX213nca213_-Z213htZ213_YZ213tvY213lsY213jeY213heY213tzX213tyX213dxX213zrX213psX",
    "213zzW213r__113vk_113bZ_113dr-113th-113btz113vgz113Xsx113fix113tpv113ftu113Xpu113Zou113p_t11",
    "3Zyt113_-t113rxt113zxt113Xzt113hut113hpt113nxs113pur113Xbr113roq113zaq113pao113d-n113Ztn113x",
    "kn113rin113_hn113Xfn113rxl113Zpj113sts413ets413emy413fp_213rhz213rfz213eth513q_m513u_X613fvj",
    "113rqj1c12152i60152i66152i6C153i606153i60C252c72C2152et24152et2T152et2H152yt2F152et2D52152oz",
    "2f210152a_2r313xpw313Xrw323zqw333nqw313zpw313xpw313xlz3152o-2l2152o-2j2153o-2v2A153o-2v2C152",
    "Wz2n1152Wz2l1152Wz2d1152Yz2f1152az2h1152cz2j1152ez2l1152gz2n1152iz2p112152mz2t1152oz2v1152qz",
    "2x1152sz2z1152uz2_112152yz2Z212152W-2d2152Y-2f212152c-2j2152e-2l212152i-2p2152k-2r2152m-2t21",
    "52o-2v2152q-2x2152gz2t1152Yz2Z1152sz2t1152e-2f2152Wz2O251Yd3451sd3451yd3451We3451qd3451-d345",
    "1od3451eg3451ig3451ee3451ce3451ie3451ke3251we3251ue3251ye3251me3251mf3251Yf3451og3451-g3451c",
    "h3451Yh3251qh3451sh3251Wi3451Yi3451yh3251aj3251cj3X10451wg3251ki3251ii3251mi3152ki3b5251si32",
    "51gi3251oi3451Wj3251oa3252iY32252iY3-A252iY3a2252iY3YA252iY3WA252iY3aA352iY3qA352iY3c2451ui3",
    "152iY3C152iY3E152iY3-1152iY3c2152iY3e2152mY38152mY3A152mY3C152mY3w1152mY3Y2152mY3a2152qY3415",
    "2qY36152qY38152qY3s1152qY3-1152qY3W2152sY32152sY3q1152sY3y1152sY3-1152uY32152uY3o1152wY31152",
    "wY3m1152yY33152yY31152yY3k1152cZ3D152cZ3B152cZ39152cZ3a1152gZ3F152gZ3W1152iZ3J152iZ3H152iZ3F",
    "152iZ3U152kZ3J152kZ3S152mZ3Q152oZ3P152oZ3O152qZ3R152qZ3M152Ya3f1152Ya3d1152Ya3b1152Ya38152Ya",
    "3G152Ya3I152aa3f1152aa36152aa3E152aa3G152ca3t1152ca3j1152ca3h1152ca3f1152ca32152ca34152ca3C1",
    "52ca3E152ea3l1152ea3j1152ea3h1152ea32152ea3A152ea3C152ga3n1152ga3l1152ga3j1152ga30152ga38152",
    "ga3A152ia3p1152ia3n1152ia3l1152ia31152ia36152ia38152ka3r1152ka33152ka34152ka36152qa3x1152qa3",
    "v1152qa3t1152qa39152qa31152qa30152WZ3W4152YZ3-3152oa3k2153W2uY3A153W2wY38153W2yY36153W2-Y341",
    "53W2WZ32153W2YZ3-1152iY3M152iY3O152iY3-1152iY3W2152iY3c2152iY3e2152mY3I152mY3K152mY3w1152mY3",
    "y1152mY3Y2152mY3a2152qY3E152qY3G152qY3s1152qY3u1152qY3-1152qY3W2152sY3C152sY3E152sY3q1152sY3",
    "s1152sY3y1152sY3-1152Ya3G152Ya3I152aa3E152aa3G152ca3t1152ca32152ca34152ca3C152ca3E152ea32152",
    "ea3A152ea3C152ga3x1152ga30152ia3f1152ia3d1152ia31152ia30152ia36152ia38152oa3k2152qa3n1152qa3",
    "l1152qa39152qa37152qa31152qa30152iY3C152iY3E152iY3G152iY3-1152iY3Y2152mY38152mY3A152mY3C152m",
    "Y3w1152mY3-1152qY34152qY36152qY38152qY3s1152qY3w1152sY3q1152uY32152uY3o1152wY31152wY3m1152yY",
    "33152yY3k1152cZ3D152cZ3B152cZ39152cZ3a1152gZ3F152gZ3D152gZ3W1152iZ3J152iZ3H152iZ3F152iZ3U152",
    "kZ3J152mZ3Q152oZ3P152oZ3O152qZ3R152qZ3M152Ya3f1152Ya3d1152Ya3b1152Ya38152aa3f1152aa36152ca3j",
    "1152ca3h1152ca3f1152ca32152ca34152ea3l1152ea3j1152ea3h1152ea32152ea36152ga3n1152ga3l1152ga3j",
    "1152ga30152ia3p1152ia3n1152ia3l1152ia31152ia32152ka3r1152ka33152ka3o2152qa3x1152qa3v1152qa3t",
    "1152qa39152qa35152iY3-1152iY3Y2152mY3w1152mY3-1152qY3s1152qY3w1152sY3q1152sY3u1152cZ3a1152cZ",
    "3e1152eZ3Y1152eZ3c1152ca32152ca34152ea32152ia31152ia32152qa39152qa35153Wa3S6153Wa3U4153Wa3W1",
    "2152kZ3a1152kZ3c1152oZ3W1152oZ3Y1152qZ3U152qZ3W1152cZ3i1152cZ3k1152eZ3g1152eZ3i1152wY3u1152w",
    "Y3w1152uY3w1152uY3y1152yY3s1152yY3u1152gZ3e1152gZ3g1152iZ3c1152iZ3e1152eZ3F152eZ3D152eZ3B152",
    "eZ3Y1152eZ35152cZ33152gZ37152iZ39152kZ3a1152kZ3c1152oZ3W1152oZ3Y1152qZ3U152qZ3W1152cZ3i1152c",
    "Z3k1152eZ3g1152eZ3i1152wY3u1152wY3w1152uY3w1152uY3y1152yY3s1152yY3u1152gZ3e1152gZ3g1152iZ3c1",
    "152iZ3e1152eZ3F152eZ3D152eZ3B152eZ3Y1152eZ35152cZ33152gZ37152iZ39152eZ3F152eZ3D152eZ3B152eZ3",
    "Y1152cZ3e1152eZ3c1152kZ3S152cZ3D152cZ3B152cZ39152eZ3F152eZ3D152eZ3B152kZ3S152mZ3Q252kY3e2I01",
    "53qY34o1253qY361153qY36m1153qY38k1153qY3s1n1153qY3s1l1153qY3s1j1253uY3o1l1153wY3m1A153wY3m18",
    "153cZ3B1153cZ3D2153cZ3Dw1253cZ3a1l1153cZ3a1n1253cZ3a10253gZ3F0153gZ3W10253eZ3Dm1153eZ3Fy1253",
    "eZ3Y1j1253eZ3Y10153iZ3Hu1253iZ3Fk1253kZ3Sl1153kZ3S0153kZ3SA153oZ3Po1253oZ3O0153oZ3O8153qZ3M0",
    "153qZ3MA153qZ3M8253Ya3b1k1153aa36l1153aa360153ea3j1m1153ea3j1w1153ea3j1u1253ea3l10253ea3h1k1",
    "253ea32l1153ga3l11153ga3l1m1153ga3l1w1153ga3n12153ga3n1o1153ga3j13153ga3j1k120153ga3n14153ka",
    "33n1153ka330153ia3n1m1153ia3n1u1253ia3p1o1153ia3p1w1153ia31A153ia318253qa390153mY3Cu1153qY34",
    "y1153qY34w1153qY38u1153qY38s1153qY3s1A153qY3s18153uY3o1A153uY32u1153uY3o18153cZ39s1153gZ3Fw1",
    "153eZ3Dw1153iZ3Hw1153ea3l1y1153ea32A153qa3v1w1153qa3x1y1153qa39A153ga30A153aa36A153ia3n1w115",
    "3aa36l1153ea3j1m1153oZ3OA153ca34A153ia3p12153ga3j1u1153ea3l1o1153ca340153ea3l1o1153ia3p12153",
    "uY32w1153wY31y1153ga3n1y1153Ya38A153mY3Aw1153ca340153oZ3Po1153gZ3W10153cZ39u1153ia3p1y180W12",
    "153gZ3Uy8153aa34y8154kY3w106154kY3u1r1I154ga3l1m1h1154gZ3ULO154YZ34g17154oZ3MC5154ma3f1Y1215",
    "3gZ3UA15IgZ3UAnY3kW3w106jY3oX3MC5jY3mY3f1Y12158uY3m1dY3uW3m1v1w16154YZ3s9fAw130G113d--313_Wd",
    "31223nz-313d_-313jz-323XWd372G01213vXl313zXl3251-523vW_313tx-313rx-323fYd323rYd323bZd323jZd3",
    "43fZd32013t--313r--3452W2gk1351-513dY_313_ad32213nX_313rX_313jX_313hZ_313dal323XZ_313_z-313z",
    "z-323nad313tZ_313pZ_323jZ_313hZ_313lY_313jY_313nY_31213tW_323fa_313rY_342152W2sY3152Wa3M152W",
    "2uY310152W2wY312152W2yY3152Wa3S152W2-Y3152Wa3U152W2WZ3152Wa3W1152W2YZ3152Wa3Y1152W2aZ3152Wa3",
    "a123zby323_by323Xcy323Zcy323bcy3351iY3251kY3451mY3251oY3451qY3451sY3451uY3451wY3451yY3251-Y3",
    "251WZ3251YZ3251aZ3451cZ3451eZ3451gZ3451iZ3451kZ3451mZ3451oZ3451qZ3451Ya3451aa3451ca3451ea345",
    "1ga3451ia3451ka3251ma3251oa3451qa3252ea3Z2252ea3X2252ea3z1252ea3v1221112W13_j_3Q3_h_3a13_j_3",
    "23pzg313bp_323hrd313bsd313pcd313ddd313hid313fid313did313bid313Zid313ned313led313jed313tgd313",
    "ddd313zid313xid313vid313tid323rid313pid313nid313lid313jid313hid313fid313did313bid313Zid313Xi",
    "d313_hd313xhd313vhd313thd363rhd313nhd313jhd313fhd313bhd353Xhd313_gd313zgd363xgd313vgd313pgd3",
    "23fmd31123Xgt313n_s313Zgt323n_s333dgt363p_s313hft333rgt313bft3A3tgt33263Xct32263bct32263fct3",
    "2233jct33223xp_313hp_3152W2ek113xp_313_p_313vpl31213hkj343nbl313vaj313bYj3H2C012Q012J0122012",
    "F022E0Y12x30523042j1032u2012D03210l12k10Y42T032n10F2S042a1092U052h1052U012b1042E0g12e13m2s30",
    "22A062a13m242a1042e1082q10B210B3k212F3k21273k21223k212B012F01270122032q10C2t9092M0A280O21023",
    "XhY413vfZ413rkY413ZpY41213dkY413ZYk113dkY413hkY423fpY413t_q313hpY413XpY413jkY413voY413_oY413",
    "bpY413nlY413xcZ413plY413_oY413dnY423zkY413zoY413msh313zWm113_oY413ish313ZnY413gsh313pgZ423vo",
    "Y413dpZ413toY413Ysh323roY413poY413bmY413hmY413hak113jmY413joY413zpj31213boY423ZnY413vnY433h_",
    "Y413Yrh313esh3b2260221012i101220321022N012e208290m12J0122052X1032R052R0c12u1042K022o10122052",
    "80123012T0223042A0729072W20W12d1042C092s1032T022R052Q07240C270m22f20t12p13W4D2p1072k1082A062",
    "G0M3W232T08220m62V012g1012302220G2608290X12k1082g10M2Q0c12S0K2N092k2042a1092-101250D2P072A06",
    "2r1012I082d1092W3012K0B2I012l10-12701210124012F012B062x1052A062401280222022M012701220125012A",
    "02220223022106210527022703250B2A01210221012c1012A012102210124012A012208220T2y201250U2e2082A0",
    "c52s1022c10Y12b20B2A062D0J2w1062A062K0S2R022F042N0v52y10a32W13W2p10C28022102280122012U012202",
    "2C092A0c228022k1022B0R2e2082p20D2f2072A0s2280u22Y10E2A0629012j1012E0A2T032W1022M012E0f227012",
    "2012i1032101220129082A06260122012b101220126072A062i1042A0s72P072H012f1032T0r2210F2o10D2xS0c3",
    "2l301250B2a60io22Z30D2mX10G2M0A2xy3052dI0vr62w10cs12vH072V012A042n2012A062U02260A2c20A2A0127",
    "012L052J0mD2w10c62W13W2x1052P3s122P0i12h2042v1072H0W2250B27092sc70f12W10X32p30zl824012701220",
    "12Z90F210T2302210E24082iC0ae22h3052D0329072A0224041yw32s60Q3fdc7A3_hc73032qD062N0F2H0F2k1022",
    "N092q30y12s70A2d1022r10152kre7S152mre7Q153mre7QI153mre7QK153mre7QM153mre7QO153mre7QQE081W201",
    "52oxe7d5152qxe7f5153oxe7d5I153qxe7f5I153oxe7d5K153qxe7f5Kg10L2c20w32K0C2K0C2t2092P0d42Q3zvf7",
    "Q3nxf7Q3bzf773v-f712I3v-f7Q3jWg7Q3XYg713rZg71223rZg72213rZg72223rZg72243rZg71283rZg743fbg712",
    "13fbg71273fbg712B3fbg7Q3zcg7Q3neg723bgg71243bgg72283bgg71273bgg712Q3vhg723jjg71243jjg71253jj",
    "g71213jjg73273jjg712Q3Xlg7Q3rmg7Q3fog7Q3zpg7Q3nrg7Q3btg7Q3vug7Q3jwg7Q3Xyg7Q3rzg7Q3f_g7Q3zWh7",
    "Q3nYh713btg713xcg722H3jlf713Xmf773jlf713phw6H3Xnf7251cy163Xnf713njw613jof713fof713dof713nnf7",
    "13znf713Xof7H3Xpf713rpf773Xpf713dlw6H3rqf7251cy163rqf713bnw613Xsf713zrf713xrf713brf713nrf713",
    "rrf7H3rsf713ftf773rsf713xow6H3fuf7251cy163fuf713vqw613rvf713nvf713lvf713vuf713bvf713fvf7H3fw",
    "f713zwf773fwf713lsw6H3zxf7251cy163zxf713juw613fzf713bzf713Zzf713jyf713vyf713zyf7H3zzf713n-f7",
    "73zzf713Zww6H3n_f7251cy163n_f713Xyw613zWg713vWg713tWg713XWg713jWg713nWg7251wz122A3xvh7A3lwh7",
    "A3Zxh7A3txh7A3hyh7iK0F25012F0mY12V06260r627012H02270122012505293__j733z_j7B3x_j713t_j723r_j7",
    "13Xyy413Ztj713h_j713f_j713fsj713_vj713Xuj793XYk723_Xk723xXk713vXk763tXk723rXk713hzj713ZXk713",
    "dXk713rWk713_xj713rXz413txj7X1210m32j1032E022A04220WA2V0H2w105210mE2g10s62h104210W62V012M082",
    "20W72701240122012F012b6022G0f12Y13a2g1042A04220nO2a20i22z10Y6223nzp713hzp713dzp71213vxp713dz",
    "p713pzp713Xzp713zxp743jyp713rzp713hzp713zyp713tzp713_yp713Z-p713_zp723r-p713n-p713l-p713b-p7",
    "13Z-p713X-p713xwp713bsp713vtp713_wp71213n_p713h_p71213vzp72213p_p71213zzp743j-p713r_p713h_p7",
    "13z-p713t_p713_-p71213__p723rWq713nWq71213bWq71213XWq76213hXq74213pXq71213z_p71213jWq71213jW",
    "q713rXq713hXq71213tXq713_Wq71213_Xq72213nYq71213bYq71213XYq71213bwp71213_-p71213nZq713hZq712",
    "13vXq72213pZq713XZq713zXq713jYq71223jYq713rZq713hZq713zYq713tZq713_Yq71213_Zq723raq713naq712",
    "13baq713Zaq713Xaq713xWq71213vzp71223nbq713hbq713dbq723vZq713dbq713pbq713Xbq713zZq71233jaq713",
    "rbq713hbq713zaq713tbq713_aq713Zcq713_bq723rcq713ncq713lcq713bcq713Zcq713Xcq75213ndq713hdq713",
    "ddq71213vbq713ddq713pdq713Xdq713zbq71233jcq713rdq713hdq713zcq713tdq713_cq713Zeq713_dq723req7",
    "13neq713leq713beq713Zeq713Xeq7q1220k82i1042a30C2F022F012F012b10B2152W37152Y39152a3B152c3D152",
    "e3F152g3H152i3J152k3L152m3N152o3P50153m2o3l3153m2q3n3153m2s3p3153m2u3r3153m2w3t3153m2y3v3153",
    "m2-3x3153m2W4z3153m2Y4_3153m2a4X4153m2c4Z4153m2e4b4153m2g4d4153m2i4f4153m2k4h4153m2m4j4153m2",
    "o4l4153m2q4n4153m2s4p4153m2u4r4153m2w4t4153m2y4v4153m2-4x4153m2W5z4153m2Y5_4153m2a5X5153eXOX",
    "wNawN13liu713phu7152c62152k7610Q3ziu7152m6S152w6I152c7T152c70153W70C152k7d1Q0152w6J152w6H152",
    "w6AZ10152e6CT0u12Q0152sdO_2152chO013vqW7D213fyd613phh613hal613tqW713lun613rli613bZq513xki613",
    "dtn613n_b613nlW613Zec613zyl613Xff613Xfm613zcc613bWm613zjw513bm-513pto513dpi613t-k613ZnX613Zv",
    "d613bjd613nYo613XYo613X-m513hag613__n613rZl613lod613_ho513xzd613Xhy513nxx513tYl613fxX613vob6",
    "13zob613fm-513jyl613dek613xkm542153eXOmnRjnR153eXOg_Ed_E153eXOmdFjdF153eXOgtLdtL153eXOggW1dg",
    "W1153eXO-ZPxZP153eXOciZ1ZiZ1153eXOoiHliH153eXOcqQZqQ7213nhf613Zcl6E260w42vU032H032D032w6062C",
    "04210F2C042u1082A062e1082U022C04220E290d12uA082E022D032B032v10121042G022C042A072p4012y20A3_x",
    "z710bW12Wtf10W12-e4022kq5022nf70F2kJ0Yj2213byqA13nyqA13XyqA13Xkx313dgqA13jbqA13raqA13fWqA13x",
    "upA13_spA13bopA13tppA13xsXB13bzu313XipA13rhpA13tgpA13pfpA13hlv313prXB13vgpA13lepA13riv313_dp",
    "A13ddpA13vqqA13xcpA13hcpA13vZp113lYpA13rXpA13_pXB13f-oA13rzoA13_woA13twoA13zmXB13xroA13vroA1",
    "3bqoA13xooA23dooA13dnoA13bkoA13tjoA13djoA13thoA13bhoA351-tf113lWt313fyZA13tcoA13lboA13fjs313",
    "xaoA13naoA13fZoA13xvnA13fWoA13h_nA13jznA13xvnA13rqnA13ZpnA13_knA13XknA251eug113xgnA13vfnA13h",
    "fnA13lenA13fpmA13hanA13hpmA13v_mA13rzmA13napA13bslA13demA13zbmA13jamA13pimA13dYmA13hYmA13twl",
    "A13ftn313lslA13dslA13hrlA13bqlA13tplA13vllA13lxm313jtm313hdlA13lalA13vZlA13velA13__kA13ntWB1",
    "3tsWB13XskA251ypj113dgl313pgkA13hfkA13lekA13vdkA13nrk313bdkA13vckA13XoiA13bbkA13flWB13jXkA13",
    "pWkA13nxjA13v-jA13jfj313npjA13jfj313_mjA13dnjA13dmjA23_fjA13dbWB13jejA13vbjA13najA13xXjA13hY",
    "WB13hmh313xWWB13rziA13nziA13jziA13dyiA13vlg113ZviA251Ypn813Zfx9251aol113zy_A13zzY313xhh213jp",
    "iA13zoiA13lx_A13ZmiA13_iiA13jiiA13hgiA13zXiA13js_A13hu_A13zWiA13_ye313xzhA13xrhA13rrhA13prhA",
    "13vrhA13_ohA13vnhA13plhA13nmhA13zlhA13XjhA13xhhA13rhhA13ZghA13lfhA13jbhA13dWhA13Z-gA13jsgA13",
    "twc313ttgA13xxgA13brgA13npgA13njgA13vic313vfgA13rlgA13lngA13df_A13pbgA13hagA13lYgA13zagA13rb",
    "_A13ntfA13vrfA13_ha313lkfA13dzeA13defA13fx-A13xZfA13ly-A13v--A13_ppA13xppA13dzeA13nZfA13nYy9",
    "13xlwA13XyeA13xxeA13nxeA13vteA13nueA13pnY313fv-A13fkeA13rreA13zeeA13vbeA13hdY313hbeA13hieA13",
    "ZzdA13pq-A13hwdA13hqdA13_ldA13badA13naX313ZXdA13hj-A13xycA13naW313vvcA13dg-A13XucA13frcA23rp",
    "cA13pc_213v-j313z_-213tgcA13zZ-213vZcA13_YcA13jfcA13n-bA13ZybA13pubA13XybA13pvbA13tubA13_tbA",
    "13l-z213bzbA13njbA13rfbA13jzzA13_ZbA13fabA13tZz213fnbA13XwaA13Zxy213buy213tqaA13pjaA13hlaA13",
    "plaA13_tzA13viaA13rfaA13ZgaA13vcaA13h_v313jzZA13phx213ZuZA13dtw213llZA13tkZA13ZjZA13rnv213dg",
    "ZA13_eZA13X_u213bnu213xwYA13xvYA13xdzA13huYA251mhV13jkYA13bjYA13zhYA13tgYA13lcYA13lXzA13_WYA",
    "13zls213l_XA13fgs213lyXA13pvh313poXA13pvq213duq213nlq213ZqyA13jpyA13taXA13xaq213_aq213pYq213",
    "XXq223jYXA13lYXA13x_WA13_myA13zxWA13fmyA13hhyA13_oo213_lWA13biWA13deWA13xcyA13ton213v__913ph",
    "n213_en213jy_913ts_913nYyA13nn_913_m_913tm_913_zl2251kgj913Xd_913xrxA13hxk213tv-913pv-913vpx",
    "A13fkk213df-913jixA13_d-913he-913pc-913f-i213nW-913tcxA13jwz913vsz913roz913vZxA13pqh213toh21",
    "3rXxA13tfh213t_y913nZh213b-y913zty913fty913Xgg213nbg213vny913hzf213zmy913XYZ313twwA13_iy913_",
    "dy913ntwA13jay913XjlA13_ze213bze213h_Y313x-Y313pux913lux913z-q913bowA13xlx913fmx913dlx913zjp",
    "A13Zkx913Xkx913ljx913_gx913rbd213bhx913tdx913jZx913x-w913ndx913_zw913jxw913lqw913vax913jzw91",
    "3hzw913jyw913xsc213pZc213Xjc213tdwA13jhw913hhw913dfw913X-Y213law913Xeb213XbwA13xawA13z_a213z",
    "ja213jawA13bsv913lrv913xqv913vqv913xmv913_ov913rgv913ljv913Zav913dfv913Zbv913lZv913l-vA13zzu",
    "913_xu913nyvA13bsu913Xsu913xrX213zku913nku913bvvA13ziu913zmYB13vnW213hcW213zmvA13jmvA13zot91",
    "3bkt913jat913vts913ro-113nos913dns913rhs913_bs913ngz113fzu313zWs913zXs913t-r913zlu313pmr913j",
    "gr913xWw113d_v113xqq913Zlq913bjq913jhv113riq913zwp923Xnp913xsp913Z_o913jzo913b_s113bco913pbu",
    "A13nZo913pds113tWuA13_on913ZakA13Zjn913Xhq113vzp113putA13butA13pXn913X_o113pqtA13jso1251sWi2",
    "13jzm913rao113_nm913_itA13rjm913xbm913dam913nWm913pZtA13njl113lll913ryk913zmk913zpsA13XosA13",
    "lgk913Zqi113nnsA13vmi113fWi113buh113prj913_hsA13xnj913pnj913dnj913rmj913fmj913Xkj913vXg1Yl12",
    "hw4052gf80capL2m71mm_52"]).toList
  unpackRules ns.length 0 #[] ns

/-- What becomes of a character of a host name: the characters in its place, or none if it is not
allowed. -/
def mapHostChar? (c : Char) : Option (List Char) :=
  let n := c.toNat
  let moved (distance : Int) := [Char.ofNat (n + distance).toNat]
  match hostRuns[hostRuns.search n 0 hostRuns.size]? with
  | none => none
  | some r =>
    match r.value with
    | .kept => some [c]
    | .ignored => some []
    | .disallowed => none
    | .shifted distance => some (moved distance)
    | .alternating distance => some (if (n - r.first) % 2 = 0 then moved distance else [c])
    | .replaced characters => some characters

/-- Whether a character stays as it is. -/
def isHostChar (c : Char) : Bool := mapHostChar? c = some [c]

end AdLedger.Unicode
