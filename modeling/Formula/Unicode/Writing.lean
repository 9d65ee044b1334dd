import Formula.Unicode.CharSet

/-! The writing systems that characters belong to. -/

namespace Formula.Unicode.Writing

/-- A writing system has a short and a long name, characters of its own, and characters of other
systems that are also written with it, such as marks and digits; both are tables of gaps. -/
structure System where
  names : List String
  own : String
  shared : String := ""

def systems : List System := [
  { names := ["adlm", "adlam"]
    own := "1E900 4B 4 9 4 1"
    shared := "61F 0 20 0 1A0E 0 DF1 0" },
  { names := ["ahom"]
    own := "11700 1A 2 E 4 16" },
  { names := ["hluw", "anatolianhieroglyphs"]
    own := "14400 246" },
  { names := ["arab", "arabic"]
    own := "600 4 1 5 1 D 1 2 1 1F 1 9 B 19 1 6B 1 21 50 2F F0 1E 1 1 5 4A 1 1C F250 72 10 " ++
      "16A 2 4F 2 35 7 0 20 F 70 4 1 86 F63 1E 43 2 37 3 DF00 3 1 1A 1 1 1 0 2 0 1 9 1 " ++
      "3 1 0 1 0 6 0 4 0 1 0 1 0 1 2 1 1 1 0 2 0 1 0 1 0 1 0 1 0 1 1 1 0 2 3 1 6 1 3 1 " ++
      "3 1 0 1 9 1 10 5 2 1 4 1 10 34 1"
    shared := "60C 0 E 0 3 0 20 0 A A 1A 0 19DE 0 DF1 0 CEFC 1 5A0 1B" },
  { names := ["armn", "armenian"]
    own := "531 25 2 31 2 2 F583 4"
    shared := "308 0" },
  { names := ["avst", "avestan"]
    own := "10B00 35 3 6"
    shared := "B7 0 2D78 1" },
  { names := ["bali", "balinese"]
    own := "1B00 4C 1 31" },
  { names := ["bamu", "bamum"]
    own := "A6A0 57 C108 238" },
  { names := ["bass", "bassavah"]
    own := "16AD0 1D 2 5" },
  { names := ["batk", "batak"]
    own := "1BC0 33 8 3" },
  { names := ["beng", "bengali"]
    own := "980 3 1 7 2 1 2 15 1 6 1 0 3 3 2 8 2 1 2 3 8 0 4 1 1 4 2 18"
    shared := "2BC 0 694 1 11 1 136A 0 1 0 2 1 1 0 8 0 8 0 2 0 4 0 2 2 8BF9 0" },
  { names := ["bhks", "bhaiksuki"]
    own := "11C00 8 1 2C 1 D A 1C" },
  { names := ["bopo", "bopomofo"]
    own := "2EA 1 2E19 2A 70 1F"
    shared := "2C7 0 1 2 D 0 2D27 2 4 9 1 C A 3 2 0 6 0 C3 0 CD49 1 11A 4" },
  { names := ["brah", "brahmi"]
    own := "11000 4D 4 23 9 0" },
  { names := ["brai", "braille"]
    own := "2800 FF" },
  { names := ["bugi", "buginese"]
    own := "1A00 1B 2 1"
    shared := "A9CF 0" },
  { names := ["buhd", "buhid"]
    own := "1740 13"
    shared := "1735 1" },
  { names := ["cans", "canadianaboriginal"]
    own := "1400 27F 230 45 101BA F" },
  { names := ["cari", "carian"]
    own := "102A0 30"
    shared := "B7 0 1FA2 0 2 0 DD3 0" },
  { names := ["aghb", "caucasianalbanian"]
    own := "10530 33 B 0"
    shared := "304 0 2C 0 2C 0" },
  { names := ["cakm", "chakma"]
    own := "11100 34 1 11"
    shared := "9E6 9 650 9" },
  { names := ["cham"]
    own := "AA00 36 9 D 2 9 2 3" },
  { names := ["cher", "cherokee"]
    own := "13A0 55 2 5 9772 4F"
    shared := "300 2 1 0 6 1 16 1 B 1" },
  { names := ["chrs", "chorasmian"]
    own := "10FB0 1B" },
  { names := ["zyyy", "common"]
    own := "0 40 1A 5 1A 2E 1 E 1 4 17 0 1F 0 1C1 26 5 4 2 13 74 0 9 0 6 0 1 0 27D 0 6 0 E 0 " ++
      "3 0 20 0 9C 0 204 0 81 1 4D9 0 195 3 122 0 5EF 2 47 1 CB 1 1 0 4CD 0 D 0 7 3 1 5 " ++
      "1 2 2 0 305 B 2 56 1 A 3 A 1 E 11 20 3F 25 1 2 2 5 1 1A 1 10 29 2 4 299 16 A 15 " ++
      "39F 100 273 2 1F 1 68 200 5D 192 14 1 0 1 18 F 7 4 3 5B 1 3 0 5A 1 93 F 20 25 9 " ++
      "0 30 3F 1F 50 2F 0 58 A7 19C0 3F 5900 21 66 2 A5 9 F4 0 A0 0 18B 0 E 1 51D2 1 D0 " ++
      "9 16 22 1 12 1 3 93 0 1 1F 1A 5 1A A A 0 2D 1 40 6 1 6 A 4 102 2 4 2C 3 8 50 C " ++
      "33 2C E4 1A B9A4 3 F5C F9 6 1B3 9C 73 3C F5 A 26 2 3D 3 10 8 1 7 1D 4 3C D5 13 C " ++
      "13 C 56 9 18 87 54 1 46 1 1 2 0 2 1 2 3 1 B 1 0 1 6 1 40 1 3 2 7 1 6 1 1B 1 3 1 " ++
      "4 1 0 3 6 1 153 2 123 2 31 1471 43 4C 3C 2C2 2B 4 63 C E 2 E 1 E 1 24 A AD 38 19 " ++
      "1 1 D 2B 4 8 7 1 E 5 9A 3D7 4 10 3 C 3 76 4 5E 6 B 4 0 F B 4 37 8 9 6 27 8 1D 2 " ++
      "B 4 1 3E 153 C D 2 C 3 9 5 37 7 E 2 A 6 8 7 92 1 65 C0407 0 1E 5F" },
  { names := ["copt", "coptic", "qaac"]
    own := "3E2 D 2890 73 5 6"
    shared := "B7 0 248 0 3 1 1 0 6C 1 2AA1 0 D4C8 1B" },
  { names := ["xsux", "cuneiform"]
    own := "12000 399 66 6E 1 4 B C3" },
  { names := ["cprt", "cypriot"]
    own := "10800 5 2 0 1 2B 1 1 3 0 2 0"
    shared := "10100 2 4 2C 3 8" },
  { names := ["cpmn", "cyprominoan"]
    own := "12F90 62"
    shared := "10100 1" },
  { names := ["cyrl", "cyrillic"]
    own := "400 84 2 A8 1750 A A0 0 4C 0 1067 1F 7840 5F 578E 1 E200 3D 21 0"
    shared := "2BC 0 43 2 1 0 1 0 1 0 2 0 5 0 173 1 1971 0 104A 0" },
  { names := ["dsrt", "deseret"]
    own := "10400 4F" },
  { names := ["deva", "devanagari"]
    own := "900 50 4 E 2 19 9F60 1F 7200 9"
    shared := "2BC 0 694 1 11 1 136A 26 1 1 3F6 0 873F 9" },
  { names := ["diak", "divesakuru"]
    own := "11900 6 2 0 2 7 1 1 1 1D 1 1 2 B 9 9" },
  { names := ["dogr", "dogra"]
    own := "11800 3B"
    shared := "964 B 9EC0 9" },
  { names := ["dupl", "duployan"]
    own := "1BC00 6A 5 C 3 8 7 9 2 3"
    shared := "B7 0 24F 1 1 0 18 1 2B17 0 18E63 3" },
  { names := ["egyp", "egyptianhieroglyphs"]
    own := "13000 455 A F9A" },
  { names := ["elba", "elbasan"]
    own := "10500 27"
    shared := "B7 0 24D 0" },
  { names := ["elym", "elymaic"]
    own := "10FE0 16" },
  { names := ["ethi", "ethiopic"]
    own := "1200 48 1 3 2 6 1 0 1 3 2 28 1 3 2 20 1 3 2 6 1 0 1 3 2 E 1 38 1 3 2 42 2 1F 3 " ++
      "19 19E6 16 9 6 1 6 1 6 1 6 1 6 1 6 1 6 1 6 7D22 5 2 5 2 5 9 6 1 6 13CB1 6 1 3 1 " ++
      "1 1 E"
    shared := "30E 0" },
  { names := ["gara", "garay"]
    own := "10D40 25 3 1C 8 1"
    shared := "60C 0 E 0 3 0" },
  { names := ["geor", "georgian"]
    own := "10A0 25 1 0 5 0 2 2A 1 3 B90 2A 2 2 1040 25 1 0 5 0"
    shared := "B7 0 4D1 0 B71 0 F5E 0 DD6 0" },
  { names := ["glag", "glagolitic"]
    own := "2C00 5F 1B3A0 6 1 10 2 6 1 1 1 4"
    shared := "B7 0 24B 0 1 0 17E 0 2 0 101 0 B71 0 F5E 0 DE8 0 782B 0" },
  { names := ["goth", "gothic"]
    own := "10330 1A"
    shared := "B7 0 24C 1 2 0 28 0" },
  { names := ["gran", "grantha"]
    own := "11300 3 1 7 2 1 2 15 1 6 1 1 1 4 2 8 2 1 2 2 2 0 6 0 5 6 2 6 3 4"
    shared := "951 1 11 1 280 D 10DC 0 1 1 1E 2 3 1 3F6 0 F24A 0 C94 1 1 0" },
  { names := ["grek", "greek"]
    own := "370 3 1 2 2 3 1 0 4 0 1 0 1 2 1 0 1 13 1 3E E F 1926 4 32 4 4 4 54 0 140 15 2 5 " ++
      "2 25 2 5 2 7 1 0 1 0 1 0 1 1E 2 34 1 E 1 D 2 5 1 12 2 2 1 8 127 0 8A3E 0 55DA 4E " ++
      "11 0 D05F 45"
    shared := "B7 0 248 1 2 0 1 0 1 0 A 0 2E 0 2 0 2E 0 1A4B 1 29B 0" },
  { names := ["gujr", "gujarati"]
    own := "A81 2 1 8 1 2 1 15 1 6 1 1 1 4 2 9 1 2 1 2 2 0 F 3 2 B 7 6"
    shared := "951 1 11 1 9ECA 9" },
  { names := ["gong", "gunjalagondi"]
    own := "11D60 5 1 1 1 24 1 1 1 5 7 9"
    shared := "B7 0 8AC 1" },
  { names := ["guru", "gurmukhi"]
    own := "A01 2 1 5 4 1 2 15 1 6 1 1 1 1 1 1 2 0 1 4 4 1 2 2 3 0 7 3 1 0 7 10"
    shared := "951 1 11 1 9ECA 9" },
  { names := ["gukh", "gurungkhema"]
    own := "16100 39"
    shared := "965 0" },
  { names := ["hani", "han"]
    own := "2E80 19 1 58 C D5 2F 0 1 0 19 8 E 3 3C4 19BF 40 51FF 5900 16D 2 69 7508 1 C 1 " ++
      "900E A6DF 20 1039 6 DD 2 1681 E 1D30 F 26D 9A2 21D 5E2 134A 5 105F"
    shared := "B7 0 2F38 F 1 2 2 0 1 9 1 C A 3 2 0 6 0 4 3 BB 0 94 F 20 25 9 0 30 27 38 30 F B " ++
      "33 0 58 18 A 4 60 1E 7301 7 573D 1 11A 4 D3FA 11 1EDE 1" },
  { names := ["hang", "hangul"]
    own := "1100 FF 1E2E 1 101 5D 71 1E 41 1E 76E1 1C 283 2BA3 C 16 4 30 27A4 1E 3 5 2 5 2 5 " ++
      "2 2"
    shared := "3001 2 4 9 1 C 10 0 6 0 C3 0 CD49 1 11A 4" },
  { names := ["rohg", "hanifirohingya"]
    own := "10D00 27 8 9"
    shared := "60C 0 E 0 3 0 20 0 93 0" },
  { names := ["hano", "hanunoo"]
    own := "1720 14"
    shared := "1735 1" },
  { names := ["hatr", "hatran"]
    own := "108E0 12 1 1 5 4" },
  { names := ["hebr", "hebrew"]
    own := "591 36 8 1A 4 5 F528 19 1 4 1 0 1 1 1 1 1 9"
    shared := "307 1" },
  { names := ["hira", "hiragana"]
    own := "3041 55 6 2 17F61 11E 12 0 1D 2 40AD 0"
    shared := "3001 2 4 9 1 C 10 5 1 0 4 1 5B 3 3 0 5A 1 CD48 1 11A 4 A 0 2D 1" },
  { names := ["armi", "imperialaramaic"]
    own := "10840 15 1 8" },
  { names := ["zinh", "inherited", "qaai"]
    own := "300 6F 115 1 1C4 A 1A 0 2E0 3 115B 1E 201 2 1 C 1 6 4 0 6 0 3 1 C6 3F 20C 1 C2 " ++
      "20 F39 3 6B 1 CD65 F 10 D 3CF 0 E2 0 105A 0 BBC4 2D 2 16 220 2 11 7 2 6 1E 3 " ++
      "C2F52 EF" },
  { names := ["phli", "inscriptionalpahlavi"]
    own := "10B60 12 5 7" },
  { names := ["prti", "inscriptionalparthian"]
    own := "10B40 15 2 7" },
  { names := ["java", "javanese"]
    own := "A980 4D 2 9 4 1"
    shared := "A9CF 0" },
  { names := ["kthi", "kaithi"]
    own := "11080 42 A 0"
    shared := "966 9 24C1 0 79FE 9" },
  { names := ["knda", "kannada"]
    own := "C80 C 1 2 1 16 1 9 1 4 2 8 1 2 1 3 7 1 6 1 1 3 2 9 1 2"
    shared := "951 1 11 1 136A 0 1 1 6 0 17 0 1 0 8B3B 5" },
  { names := ["kana", "katakana"]
    own := "30A1 59 2 2 F0 F D0 2E 1 57 CC0E 9 1 2C B052 3 1 6 1 1 1 0 11F 2 32 0 E 3"
    shared := "305 0 1D 0 2CDD 2 4 9 1 C 10 5 1 0 4 1 5B 3 3 0 5A 1 CD48 1 11A 4 A 0 2D 1" },
  { names := ["kawi"]
    own := "11F00 10 1 28 3 1C" },
  { names := ["kali", "kayahli"]
    own := "A900 2D 1 0"
    shared := "A92E 0" },
  { names := ["khar", "kharoshthi"]
    own := "10A00 3 1 1 5 7 1 2 1 1C 2 2 4 9 7 8" },
  { names := ["kits", "khitansmallscript"]
    own := "16FE4 0 1B1B 1D5 29 0" },
  { names := ["khmr", "khmer"]
    own := "1780 5D 2 9 6 9 1E6 1F" },
  { names := ["khoj", "khojki"]
    own := "11200 11 1 2E"
    shared := "AE6 9 9D40 9" },
  { names := ["sind", "khudawadi"]
    own := "112B0 3A 5 9"
    shared := "964 1 9ECA 9" },
  { names := ["krai", "kiratrai"]
    own := "16D40 39" },
  { names := ["laoo", "lao"]
    own := "E81 1 1 0 1 4 1 17 1 0 1 16 2 4 1 0 1 6 1 9 2 3" },
  { names := ["latn", "latin"]
    own := "41 19 6 19 2F 0 F 0 5 16 1 1E 1 1C0 27 4 1A1B 25 6 30 5 3 5 C 1 45 41 FF 171 0 D " ++
      "0 10 C 8D 1 6 0 1B 0 11 28 AD7 1F 7AA2 65 3 42 2 1 1 0 1 7 15 D 330 2A 1 8 1 3 " ++
      "4F96 6 41A 19 6 19 825 5 1 29 1 8 D745 1E 6 5"
    shared := "B7 0 204 0 A 0 1 2 1 0 9 0 1 0 26 E 1 1 1 0 F 2 7 1 1 1 26 0 5 0 4 C 115 1 4CA 1 " ++
      "7A8 0 CFC 0 236 0 C0 0 D26 0 78E8 7 226 0" },
  { names := ["lepc", "lepcha"]
    own := "1C00 37 3 E 3 2" },
  { names := ["limb", "limbu"]
    own := "1900 1E 1 B 4 B 4 0 3 B"
    shared := "965 0" },
  { names := ["lina", "lineara"]
    own := "10600 136 9 15 A 7"
    shared := "10107 2C" },
  { names := ["linb", "linearb"]
    own := "10000 B 1 19 1 12 1 1 1 E 2 D 22 7A"
    shared := "10100 2 4 2C 3 8" },
  { names := ["lisu"]
    own := "A4D0 2F 7AB0 0"
    shared := "2BC 0 10 0 2D3C 1" },
  { names := ["lyci", "lycian"]
    own := "10280 1C"
    shared := "205A 0" },
  { names := ["lydi", "lydian"]
    own := "10920 19 5 0"
    shared := "B7 0 2D79 0" },
  { names := ["mahj", "mahajani"]
    own := "11150 26"
    shared := "B7 0 8AC B 9EC0 9" },
  { names := ["maka", "makasar"]
    own := "11EE0 18" },
  { names := ["mlym", "malayalam"]
    own := "D00 C 1 2 1 32 1 2 1 5 4 F 2 19"
    shared := "951 1 11 1 1374 0 17 0 8B3D 2" },
  { names := ["mand", "mandaic"]
    own := "840 1B 2 0"
    shared := "640 0" },
  { names := ["mani", "manichaean"]
    own := "10AC0 26 4 B"
    shared := "640 0" },
  { names := ["marc", "marchen"]
    own := "11C70 1F 2 15 1 D" },
  { names := ["gonm", "masaramgondi"]
    own := "11D00 6 1 1 1 2B 3 0 1 1 1 8 8 9"
    shared := "964 1" },
  { names := ["medf", "medefaidrin"]
    own := "16E40 5A" },
  { names := ["mtei", "meeteimayek"]
    own := "AAE0 16 C9 2D 2 9" },
  { names := ["mend", "mendekikakui"]
    own := "1E800 C4 2 F" },
  { names := ["merc", "meroiticcursive"]
    own := "109A0 17 4 13 2 2D" },
  { names := ["mero", "meroitichieroglyphs"]
    own := "10980 1F"
    shared := "205D 0" },
  { names := ["plrd", "miao"]
    own := "16F00 4A 4 38 7 10" },
  { names := ["modi"]
    own := "11600 44 B 9"
    shared := "A830 9" },
  { names := ["mong", "mongolian"]
    own := "1800 1 2 0 1 13 6 58 7 2A FDB5 C"
    shared := "1802 1 1 0 829 0 FD1 1 5 3" },
  { names := ["mroo", "mro"]
    own := "16A40 1E 1 9 4 1" },
  { names := ["mult", "multani"]
    own := "11280 6 1 0 1 3 1 E 1 A"
    shared := "A66 9" },
  { names := ["mymr", "myanmar"]
    own := "1000 9F 9940 1E 61 1F 6C50 13"
    shared := "A92E 0" },
  { names := ["nbat", "nabataean"]
    own := "10880 1E 8 8" },
  { names := ["nagm", "nagmundari"]
    own := "1E4D0 29" },
  { names := ["nand", "nandinagari"]
    own := "119A0 7 2 2D 2 A"
    shared := "951 0 12 1 380 9 FF9 0 8 0 7 0 8B35 5" },
  { names := ["talu", "newtailue"]
    own := "1980 2B 4 19 6 A 3 1" },
  { names := ["newa"]
    own := "11400 5B 1 4"
    shared := "951 1 1382 0 1 1 9 0 6 0 1 0 1 0" },
  { names := ["nkoo", "nko"]
    own := "7C0 3A 2 2"
    shared := "60C 0 E 0 3 0 F71E 1" },
  { names := ["nshu", "nushu"]
    own := "16FE1 0 418E 18B" },
  { names := ["hmnp", "nyiakengpuachuehmong"]
    own := "1E100 2C 3 D 2 9 4 1" },
  { names := ["ogam", "ogham"]
    own := "1680 1C" },
  { names := ["olck", "olchiki"]
    own := "1C50 2F" },
  { names := ["onao", "olonal"]
    own := "1E5D0 2A 4 0"
    shared := "964 1" },
  { names := ["hung", "oldhungarian"]
    own := "10C80 32 D 32 7 5"
    shared := "205A 0 2 0 DD3 0 F 0" },
  { names := ["ital", "olditalic"]
    own := "10300 23 9 2" },
  { names := ["narb", "oldnortharabian"]
    own := "10A80 1F" },
  { names := ["perm", "oldpermic"]
    own := "10350 2A"
    shared := "B7 0 248 0 5 2 A 0 16F 0" },
  { names := ["xpeo", "oldpersian"]
    own := "103A0 23 4 D" },
  { names := ["sogo", "oldsogdian"]
    own := "10F00 27" },
  { names := ["sarb", "oldsoutharabian"]
    own := "10A60 1F" },
  { names := ["orkh", "oldturkic"]
    own := "10C00 48"
    shared := "205A 0 DD5 0" },
  { names := ["ougr", "olduyghur"]
    own := "10F70 19"
    shared := "640 0 104B1 0" },
  { names := ["orya", "oriya"]
    own := "B01 2 1 7 2 1 2 15 1 6 1 1 1 4 2 8 2 1 2 2 7 2 4 1 1 4 2 11"
    shared := "951 1 11 1 1374 0 17 0" },
  { names := ["osge", "osage"]
    own := "104B0 23 4 23"
    shared := "301 0 2 0 6 0 4C 0" },
  { names := ["osma", "osmanya"]
    own := "10480 1D 2 9" },
  { names := ["hmng", "pahawhhmong"]
    own := "16B00 45 A 9 1 6 1 14 5 12" },
  { names := ["palm", "palmyrene"]
    own := "10860 1F" },
  { names := ["pauc", "paucinhau"]
    own := "11AC0 38" },
  { names := ["phag", "phagspa"]
    own := "A840 37"
    shared := "1802 1 1 0 829 0 FD2 0" },
  { names := ["phnx", "phoenician"]
    own := "10900 1B 3 0" },
  { names := ["phlp", "psalterpahlavi"]
    own := "10B80 11 7 3 C 6"
    shared := "640 0" },
  { names := ["rjng", "rejang"]
    own := "A930 23 B 0" },
  { names := ["runr", "runic"]
    own := "16A0 4A 3 A"
    shared := "16EB 2" },
  { names := ["samr", "samaritan"]
    own := "800 2D 2 E"
    shared := "2E31 0" },
  { names := ["saur", "saurashtra"]
    own := "A880 45 8 B" },
  { names := ["shrd", "sharada"]
    own := "11180 5F"
    shared := "951 0 1385 0 1 0 2 1 2 0 9 0 2 0 8B42 5 2 0" },
  { names := ["shaw", "shavian"]
    own := "10450 2F"
    shared := "B7 0" },
  { names := ["sidd", "siddham"]
    own := "11580 35 2 25" },
  { names := ["sgnw", "signwriting"]
    own := "1D800 28B F 4 1 E" },
  { names := ["sinh", "sinhala"]
    own := "D81 2 1 11 3 17 1 8 1 0 2 6 3 0 4 5 1 0 1 7 6 9 2 2 103EC 13"
    shared := "964 1 138C 0" },
  { names := ["sogd", "sogdian"]
    own := "10F30 29"
    shared := "640 0" },
  { names := ["sora", "sorasompeng"]
    own := "110D0 18 7 9" },
  { names := ["soyo", "soyombo"]
    own := "11A50 52" },
  { names := ["sund", "sundanese"]
    own := "1B80 3F 100 7" },
  { names := ["sunu", "sunuwar"]
    own := "11BC0 21 E 9"
    shared := "300 1 1 0 9 0 2 0 1C 0 3 0" },
  { names := ["sylo", "sylotinagri"]
    own := "A800 2C"
    shared := "964 1 80 9" },
  { names := ["syrc", "syriac"]
    own := "700 D 1 3B 2 2 110 A"
    shared := "303 1 2 1 1 0 18 2 7 1 1 1 2DA 0 E 1 2 0 20 0 A A 1A 0 1787 0 1 0" },
  { names := ["tglg", "tagalog"]
    own := "1700 15 9 0"
    shared := "1735 1" },
  { names := ["tagb", "tagbanwa"]
    own := "1760 C 1 2 1 1"
    shared := "1735 1" },
  { names := ["tale", "taile"]
    own := "1950 1D 2 4"
    shared := "300 1 5 1 3 0 D33 9" },
  { names := ["lana", "taitham"]
    own := "1A20 3E 1 1C 2 A 6 9 6 D" },
  { names := ["tavt", "taiviet"]
    own := "AA80 42 18 4" },
  { names := ["takr", "takri"]
    own := "11680 39 6 9"
    shared := "964 1 9ECA 9" },
  { names := ["taml", "tamil"]
    own := "B82 1 1 5 3 2 1 3 3 1 1 0 1 1 3 1 3 2 3 B 4 4 3 2 1 3 2 0 6 0 E 14 113C5 31 D 0"
    shared := "951 1 11 1 1374 0 8C18 0 6A0D 0 1 0 37 1" },
  { names := ["tnsa", "tangsa"]
    own := "16A70 4E 1 9" },
  { names := ["tang", "tangut"]
    own := "16FE0 0 1F 17F7 8 2FF 200 8"
    shared := "2FF0 F 1EF 0" },
  { names := ["telu", "telugu"]
    own := "C00 C 1 2 1 16 1 F 2 8 1 2 1 3 7 1 1 2 2 0 2 3 2 9 7 8"
    shared := "951 1 11 1 136F 1 1 0 1 0 17 0" },
  { names := ["thaa", "thaana"]
    own := "780 31"
    shared := "60C 0 E 1 2 0 40 9 F788 0 A 0" },
  { names := ["thai"]
    own := "E01 39 5 1B"
    shared := "2BC 0 1A 0 2B 0 2D 0" },
  { names := ["tibt", "tibetan"]
    own := "F00 47 1 23 4 26 1 23 1 E 1 6 4 1"
    shared := "3008 3" },
  { names := ["tfng", "tifinagh"]
    own := "2D30 37 7 1 E 0"
    shared := "302 0 1 0 1 3 19 0" },
  { names := ["tirh", "tirhuta"]
    own := "11480 47 8 9"
    shared := "951 1 11 1 136F 0 C 0 F 0 8B3D 9" },
  { names := ["todr", "todhri"]
    own := "105C0 33"
    shared := "301 0 2 0 2 0 9 0 1 0 4A 0" },
  { names := ["toto"]
    own := "1E290 1E"
    shared := "2BC 0" },
  { names := ["tutg", "tulutigalari"]
    own := "11380 9 1 0 2 0 1 25 1 9 1 0 2 0 1 3 1 9 1 1 8 1"
    shared := "CE6 9 1002 0 1 0 8B3B 5 BB 0" },
  { names := ["ugar", "ugaritic"]
    own := "10380 1D 1 0" },
  { names := ["vaii", "vai"]
    own := "A500 12B" },
  { names := ["vith", "vithkuqi"]
    own := "10570 A 1 E 1 6 1 1 1 A 1 E 1 6 1 1" },
  { names := ["wcho", "wancho"]
    own := "1E2C0 39 5 0" },
  { names := ["wara", "warangciti"]
    own := "118A0 52 C 0" },
  { names := ["yezi", "yezidi"]
    own := "10E80 29 1 2 2 1"
    shared := "60C 0 E 0 3 0 40 9" },
  { names := ["yiii", "yi"]
    own := "A000 48C 3 36"
    shared := "3001 1 5 9 2 7 DF 0 CE65 4" },
  { names := ["zanb", "zanabazarsquare"]
    own := "11A00 47" }]

def system? (name : String) : Option System := systems.find? (·.names.contains name)

/-- The characters of a writing system, each of which has one. -/
def find? (name : String) : Option CharSet := (system? name).map fun s => .ofGaps s.own

/-- Systems for what is not written with one system only. -/
def isGeneral (s : System) : Bool := s.names.contains "common" || s.names.contains "inherited"

def shared : CharSet := .unions (systems.map fun s => .ofGaps s.shared)

/-- The characters that are written with a system. One that is known to be written with some systems
is no longer a general one. -/
def extension? (name : String) : Option CharSet :=
  (system? name).map fun s =>
    if isGeneral s then (CharSet.ofGaps s.own).diff shared
    else (CharSet.ofGaps s.own).union (.ofGaps s.shared)

end Formula.Unicode.Writing
