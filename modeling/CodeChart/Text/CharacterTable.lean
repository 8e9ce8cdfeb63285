/-! The names of characters after Unicode 14: letters, marks, punctuation, signs and pictographs.
Each table lists names in alphabetical order. An entry begins with a mark for the number of letters
that its name shares with the name before. More marks give the code point; without them it is the
one after the code point before. The rest of the name follows. Entries run on from line to line. -/
namespace CodeChart.Text

def characterNamesAToC : List String := [
  "abs|iABACUSbeykC CURRENTcbtb_CORDIONeeh,UNT OFcgKdgNOWLEDGEceevTIVATE ARABIC FORM SHAPINGjeetS",
  "YMMETRIC SWAPPINGceaUTE ACCENTbeh.DDRESSED TO THE SUBJECTcbtbmHESIVE BANDAGEce<hI SHAKTIcbshnM",
  "ISSION TICKETScbs_yULTbbsysERIAL TRAMWAYb.rFGHANI SIGNbe_cIRPLANEibs!d ARRIVINGjbs!cDEPARTUREb",
  "ejuKTIESELSKABbeyuLARM CLOCKcei^EF SYMBOLde>yMBICdhRTcbsmlIEN MONSTERceugL AROUND-PROFILEeepfE",
  "QUAL TOc..MdepdOST EQUAL OR EQUAL TOnepbTOce?^TERNATE ONE-WAY LEFT WAY TRAFFICiewfIVE KEY SYMB",
  "OLbbsycMBULANCEcbsijERICAN FOOTBALLc=PERSANDdbsjoHORAbbtc=NATOMICAL HEARTce>uCHORcfbxD WITH DO",
  "TcbsncGER SYMBOLdeogLEdbsvyRY FACEdei*STROM SIGNdbsv*UISHED FACEce<aKHcbskdTdbso^ENNA WITH BAR",
  "SdeozICLOCKWISE CONTOUR INTEGRALobspkDOWNWARDS AND UPWARDS OPEN CIRCLE ARROWSofclGAPPED CIRCLE",
  " ARROWoel>OPEN CIRCLE ARROWoel:TOP SEMICIRCLE ARROWbdyPCcev<L FUNCTIONAL SYMBOL ALPHA%ev, UNDE",
  "RBARweuyBACKSLASH BARweu,CIRCLE BACKSLASH(evqDIAERESIS(euwJOT(evkSTAR*euvILE(evhUNDERBARxevvOM",
  "MA BARwevnDEL DIAERESIS!eu_STILE!evwTILDEzeu:TA STILE&eveUNDERBARxIAMOND UNDERBARxev&OWN CARET",
  " TILDE%evrSHOE STILE%eu=TACK JOT+eu.UNDERBAR!evbWARDS VANEwev.EPSILON UNDERBARwevuGREATER-THAN",
  " DIAERESISweuoI-BEAMxev)OTA!ev: UNDERBARwevpJOT DIAERESIS!evgUNDERBARwevsLEFT SHOE STILE!eu(WA",
  "RDS VANEwev+OMEGA%ev; UNDERBARwewtQUAD!eu! BACKSLASH%euuCIRCLE&evlOLON%eu~DEL)eu<TA&eusIAMOND(",
  "eurVIDE&eu;OWN CARET*evcWARDS ARROW%euqEQUAL%eu&GREATER-THAN%eutJOT%eu*LEFTWARDS ARROW(eu%SS-T",
  "HAN%ev!NOT EQUAL%QUESTION%eu+RIGHTWARDS ARROW%euzSLASH%eu|UP CARET(eu?WARDS ARROWyevjOTE QUAD&",
  "evdUNDERBARwev*RHOxeu)IGHTWARDS VANEwevzSEMICOLON UNDERBARxeuxLASH BARxeupQUISH QUADxevoTAR DI",
  "AERESISyevyILE TILDEwevtTILDE DIAERESISwev(UP CARET TILDEzeviSHOE JOTzevmTACK DIAERESIS)evaJOT",
  ")eu^OVERBARyeu>WARDS VANEwevxZILDEc>OSTROPHEcdyPLICATION PROGRAM COMMANDdepjROACHES THE LIMITf",
  "eo~XIMATELY BUT NOT ACTUALLY EQUAL TOoeo|EQUAL TOwepl OR THE IMAGE OFbe=aQUARIUSb.sRABIC COMMA",
  "h:?DAMMAm:<TANj.tTE SEPARATORi;xECIMAL SEPARATORh>qEMPTY CENTRE HIGH STOPu>pLOW STOPi>cND OF A",
  "YAHo.:TEXT MARKh:>FATHAm;k WITH TWO DOTSm:;TANi;zIVE POINTED STARi.iOOTNOTE MARKERi==ULL STOPh",
  ";aHAMZA ABOVEnBELOWh;dINVERTED DAMMAh:^KASRAm:=TANh=>LETTER AEp:sINr<* WITH THREE DOTS ABOVEp:",
  "aLEFs:. MAKSURAt;(WASLAu.^ITH HAMZA ABOVE).|BELOWy.?MADDA ABOVEy;)WAVY HAMZA ABOVE:BELOWo;>BEE",
  "Hq:bHr;~EHo:pDADr>+ WITH DOT BELOWq<lHALq:iLr<j WITH DOT BELOW+ AND SMALL TAHx<pFOUR DOTS ABOV",
  "Ex>tINVERTED Vx<iRINGx<oTHREE DOTS ABOVE DOWNWARDSp<mDAHALr<hLp;!OTLESS BEHw<+FEHw;%QAFp<nULp<",
  "dYEHo=.Eo=)FARSI YEHx:w WITH INVERTED V(:yTHREE DOTS ABOVE):xWO DOTS ABOVEp:!EHr<. WITH DOT BE",
  "LOW%<,MOVED BELOWx<;THREE DOTS BELOWo=bGAFr WITH RINGx=gTHREE DOTS ABOVEy=eWO DOTS BELOWp:tHAI",
  "Nt>, WITH DOT BELOWp=fUEHo:gHAHr<a WITH HAMZA ABOVEx<eTHREE DOTS ABOVEy<bWO DOTS VERTICAL ABOV",
  "Eq.>MZAp:+EHr=q DOACHASHMEEs=tGOALw WITH HAMZA ABOVEs>;WITH INVERTED Vx=sYEH ABOVEp;+IGH HAMZA",
  "y ALEFzWAWz;;YEHo:fJEEMq<xHo:&KAFr<| WITH DOT ABOVEx<_RINGx=aTHREE DOTS BELOWq.=SHMIRI YEHp<?E",
  "HEHt:v WITH THREE DOTS BELOW!:uWO DOTS ABOVEp:hHAHp=xIRGHIZ OEw=%YUo:(LAMr=i WITH DOT ABOVEx=h",
  "SMALL Vx=jTHREE DOTS ABOVE.BELOWo..MARKp:)EEMo<~NGq=dOEHp:*OONs=m GHUNNAt=lWITH DOT BELOWy=oRI",
  "NGyTHREE DOTS ABOVEp<cYEHo=yOEo;_PEHr<<EHo:%QAFr<= WITH DOT ABOVExTHREE DOTS ABOVEo:kREHr<t WI",
  "TH DOT BELOW+<v AND DOT ABOVEx<yFOUR DOTS ABOVEx>uINVERTED Vx<sRINGx<rSMALL V)<u BELOWx<wTWO D",
  "OTS ABOVEp=nNOONp<qREHo:oSADr<( WITH THREE DOTS ABOVEy<&WO DOTS BELOWp:mEENs<z WITH DOT BELOW ",
  "AND DOT ABOVEyTHREE DOTS BELOW? AND THREE DOTS ABOVEp:nHEENt>* WITH DOT BELOWp;&UPERSCRIPT ALE",
  "Fp<^WASH KAFo:qTAHr<) WITH THREE DOTS ABOVEp<fCHEHt=r WITH DOT ABOVEt<gEHp:dEHr:c MARBUTAz=v G",
  "OALs;?WITH RINGxTHREE DOTS ABOVE DOWNWARDSr;|EHp:jHALq:eEHp;<TEHsEHo=zUp;: WITH HAMZA ABOVEo=(",
  "VEq<:Ho:,WAWr=, WITH DOT ABOVEx._HAMZA ABOVEx=wRINGx=&TWO DOTS ABOVEo::YEHr=; BARREEy WITH HAM",
  "ZA ABOVEs.~WITH HAMZA ABOVEx=+SMALL Vx=*TAILy=:HREE DOTS BELOWp=!Uo:rZAHq:lINh:~MADDAH ABOVEj;",
  "eRK NOON GHUNNAh.lNUMBER MARK ABOVEo.gSIGNh;wPERCENT SIGNi>oLACE OF SAJDAHi.uOETIC VERSE SIGNh",
  ".<QUESTION MARKh.oRAYi;jEVERSED DAMMAi>rOUNDED HIGH STOP WITH FILLED CENTREh.,SEMICOLONi:_HADD",
  "Ai.xIGN ALAYHE ASSALLAMm.vMISRAm.zRADI ALLAHOU ANHUo.yHMATULLAH ALAYHEm.jSAFHAo.wLLALLAHOU ALA",
  "YHE WASSALLAMo.kMVATo.hNAHn>.INDHI AMPERSANDtPOSTPOSITION MENm.!TAKHALLUSi.*MALL DAMMAn.)FATHA",
  "n>gHIGH DOTLESS HEAD OF KHAHs=~JEEMs=|LAM ALEFt.&IGATURE ALEF WITH LAM WITH YEH%=^QAF WITH LAM",
  " WITH ALEF MAKSURA%=?SAD WITH LAM WITH ALEF MAKSURAs>jMADDAt=_EEM INITIAL FORMy>hSOLATED FORMs",
  ">nNOONs>eROUNDED ZEROs>bSEENs.%TAHt>aHREE DOTSs>fUPRIGHT RECTANGULAR ZEROs>mYEHs.(ZAINn.+KASRA",
  "n>sLOW MEEMr>iSEENn>kWAWnYEHi>dTART OF RUB EL HIZBi;cUBSCRIPT ALEFj:|KUNh:zTATWEELi;yHOUSANDS ",
  "SEPARATORi.;RIPLE DOT PUNCTUATION MARKh;iVOWEL SIGN DOT BELOWs;hINVERTED SMALL V ABOVEs;gSMALL",
  " V ABOVEh;lWAVY HAMZA BELOWh;fZWARAKAYg.m-INDIC CUBE ROOTn;uDIGIT EIGHTt;rFIVEu;qOURt;vNINEt;n",
  "ONEt;tSEVENu;sIXt;pTHREEu;oWOt;mZEROn.nFOURTH ROOTn.pPER MILLE SIGNrTEN THOUSAND SIGNcetxCce<:",
  "IEScbsymTICULATED LORRYebshwST PALETTEbe;sSCENDING NODEcerfSERTIONc_TERISKien_ OPERATORhedxMdb",
  "sv_ONISHED FACEde^jRONOMICAL SYMBOL FOR URANUSceo^YMPTOTICALLY EQUAL TObbslzTHLETIC SHOEce>&OM",
  " SYMBOLbbsfoUBERGINEcegbSTRAL SIGNcbs!rTO RICKSHAWebsi?MATED TELLER MACHINEfbsyiOBILEbbs>*VOCA",
  "DObbtb=XEabsmdBABYebsmj ANGELfbsgxBOTTLEfbsklCHICKfbszaSYMBOLcbssbCK OF ENVELOPEfbsp*WITH LEFT",
  "WARDS ARROW ABOVEefa)-TILTED SHADOWED WHITE RIGHTWARDS ARROWeiSPACEdbs>,ONdbsksTRIAN CAMELcbs^",
  "vDGERdbsjmMINTON RACQUET AND SHUTTLECOCKcbs?qGELdbsziGAGE CLAIMdbs>;UETTE BREADcbs|qLL OF YARN",
  "ebtbdET SHOESebsg:OONhe|w-SPOKED ASTERISKfbsu%T BOLD SCRIPT Xje;yXkbsuy WITH BALLOTrbsu)OLD CH",
  "ECKvbsu&SCRIPT Xqe;zCHECKqbsu!SCRIPT Xqe;!XhbsuzSCRIPT Xhe_rXcbsfuNANAdbtb?JOdbsi>KebsnvNOTE W",
  "ITH DOLLAR SIGNoEURO SIGNoPOUND SIGNobsnuYEN SIGNcbsn_R CHARTebs|wOF SOAPdbsmvBER POLEce?sSEBA",
  "LLdbs|uKETgbsibBALL AND HOOPcbs??TdbszeHeTUBdbsprTERYbbsixEACH WITH UMBRELLAdbshkMED ASCENDING",
  " MUSICAL NOTEShDESCENDING MUSICAL NOTEShe=zEIGHTH NOTEShSIXTEENTH NOTESdbtdrNSdbsk.R FACEebs_%",
  "DED PERSONdbsm+TING HEARTdbs^*VERceo%CAUSEcbsztDcbsgvER MUGdbtcyTLEchLdbsp!Lebtdk PEPPERfev^SY",
  "MBOLfbsp%WITH CANCELLATION STROKEebszsHOP BELLcbsgmNTO BOXdeueZENE RINGmeyh WITH CIRCLEcei_T S",
  "YMBOLdep<WEENcbs_kVERAGE BOXbbsy:ICYCLEgbsy<ISTcbsltKINIcbs_^LLED CAPebsh*IARDSce;|OHAZARD SIG",
  "NcbsknRDdbsg(THDAY CAKEcbs^+SONcegnTCOIN SIGNdbtd*ING LIPbe_=LACK CENTRE WHITE STARhe=lHESS BI",
  "SHOPsbs|~ ROTATED NINETY DEGREES%bs~^TWO HUNDRED SEVENTY DEGREESmbtajEQUIHOPPERwbtam ROTATED N",
  "INETY DEGREESme=iKINGqbs|^ ROTATED NINETY DEGREESzbs~=TWO HUNDRED SEVENTY DEGREESne=mNIGHTsbs|",
  ", ROTATED FORTY-FIVE DEGREES%bs~aNINETY DEGREES%bs~jONE HUNDRED THIRTY-FIVE DEGREES%btagTHREE ",
  "HUNDRED FIFTEEN DEGREES&bs~_WO HUNDRED SEVENTY DEGREES>bs~)TWENTY-FIVE DEGREESsbtat-BISHOPtbta",
  "rQUEENtROOKme=nPAWNqbs~b ROTATED NINETY DEGREESzbs~|TWO HUNDRED SEVENTY DEGREESme=jQUEENrbs|_ ",
  "ROTATED NINETY DEGREES!bs~>TWO HUNDRED SEVENTY DEGREESme=kROOKqbs|| ROTATED NINETY DEGREESzbs~",
  "?TWO HUNDRED SEVENTY DEGREESmbs~uTURNED BISHOPtbs~rKINGubs~vNIGHTtPAWNtbs~sQUEENtROOKhe:eIRCLE",
  "mey) FOR RECORDne>kWITH TWO WHITE DOTSse>jWHITE DOT RIGHThe=rLUB SUIThe^pROSS ON SHIELDge.?DIA",
  "MONDne|: MINUS WHITE Xoe=uSUIThbss.OWN POINTING BACKHAND INDEXkeyq-POINTING DOUBLE TRIANGLEue.",
  "+SMALL TRIANGLEue.)TRIANGLEhe?xRAUGHTS KINGpe?wMANibsexOPLETge>sFLAGie|mORETTEhbstrOLDERie_+UR",
  " POINTED STARgbss^HARD SHELL FLOPPY DISKhbss:EARTle=t SUITge?~LEFT LANE MERGElbss%POINTING BAC",
  "KHAND INDEXue;.INDEXkeyo-POINTING DOUBLE TRIANGLE:eys WITH VERTICAL BARue.=POINTERue.;SMALL TR",
  "IANGLEue..TRIANGLEked,WARDS BULLEThe:yOWER LEFT TRIANGLEme:xRIGHT TRIANGLEgey%MEDIUM DOWN-POIN",
  "TING TRIANGLEneyyLEFT-POINTING TRIANGLEnRIGHT-POINTING TRIANGLEne;gSMALL SQUAREoe;eQUAREney!UP",
  "-POINTING TRIANGLEhe?mOON LILITHge_mNIBge.sPARALLELOGRAMhbsjgENNANThbsshUSHPINge|+QUESTION MAR",
  "K ORNAMENTge.oRECTANGLEhbss&IGHT POINTING BACKHAND INDEXve;:INDEXleyn-POINTING DOUBLE TRIANGLE",
  ";eyr WITH VERTICAL BARve.&POINTERve.!SMALL TRIANGLEve.yTRIANGLE(eyt WITH DOUBLE VERTICAL BARlf",
  "auWARDS ARROWwfaxHEADred.BULLEThbsjkOSETTEge^>SAFETY SCISSORShe^^CISSORShe;*HOGI PIECEhbsr(KUL",
  "L AND CROSSBONEShe.mMALL SQUAREie<wILING FACEhe?%NOWMANhe=oPADE SUIThe.cQUAREmbsql BUTTONney(F",
  "OR STOPhe;nTARhe;iUN WITH RAYSge;wTELEPHONEhbsr|OUCHTONE TELEPHONEhe^gRUCKhe?_WO-WAY LEFT WAY ",
  "TRAFFICge=^UNIVERSAL RECYCLING SYMBOLhbss,P POINTING BACKHAND INDEXieyp-POINTING DOUBLE TRIANG",
  "LEse.wSMALL TRIANGLEse.uTRIANGLEie:zPER LEFT TRIANGLEmRIGHT TRIANGLEge.qVERTICAL RECTANGLEffa^",
  "-FEATHERED NORTH EAST ARROWqfa?RIGHTWARDS ARROWqfa>SOUTH EAST ARROWgei,LETTER CAPITAL CveiaHve",
  "ifIveiqRvei&ZdezzNK SYMBOLcbsfeOSSOMdbskiWFISHcbsolUE BOOKfbsm=HEARTebtdjBERRIESbbsj|OARc+k(Md",
  "bsndBcbs^?NEcbsr!OKebsp&MARKibsoe TABSebsonSdbtbwMERANGcbsgzTTLE WITH POPPING CORKeeydOM CURLY",
  " BRACKEThet=HALF INTEGRALhet:LEFT CORNERnetsROPheybPARENTHESIShet;RIGHT CORNERoetrROPhexgSQUAR",
  "E BRACKETv OVER TOP SQUARE BRACKETheyfTORTOISE SHELL BRACKETcbsm(UQUEThbshd OF FLOWERScbsjnW A",
  "ND ARROWdbsq?L OF HYGIEIAfbs?eWITH SPOONebsh,INGder>TIEce+.X DRAWINGS DOUBLE DOWN AND HORIZONT",
  "AL(e+tLEFT(e+qRIGHTue+mHORIZONTALue+<UP AND HORIZONTAL%e+zLEFT%e+wRIGHTue+nVERTICAL&e+? AND HO",
  "RIZONTAL,e+*LEFT,e+&RIGHTpe+,WN DOUBLE AND HORIZONTAL SINGLE(e+sLEFT SINGLE(e+pRIGHT SINGLEse*",
  "zHEAVY AND HORIZONTAL LIGHT&e)?LEFT LIGHT,e*qUP LIGHT&e);RIGHT LIGHT.e*iUP LIGHT&e*_UP HORIZON",
  "TAL LIGHTse*yLIGHT AND HORIZONTAL HEAVY&e)>LEFT HEAVY,e*sUP HEAVY&e):RIGHT HEAVY.e*kUP HEAVY&e",
  "+dUP HORIZONTAL HEAVYse++SINGLE AND HORIZONTAL DOUBLE(e+rLEFT DOUBLE(e+oRIGHT DOUBLEne+jHEAVY ",
  "DOUBLE DASH HORIZONTAL*e+lVERTICALve,kWNxe*& AND HORIZONTAL&e)^LEFT&e)<RIGHTte)xHORIZONTALte,h",
  "LEFTxe,n AND LIGHT RIGHTte)*QUADRUPLE DASH HORIZONTAL.e),VERTICALte,jRIGHTte)%TRIPLE DASH HORI",
  "ZONTAL*e)(VERTICALte,iUPve*; AND HORIZONTAL!e*eLEFT%e,oIGHT DOWN!e*aRIGHTte)zVERTICAL%e+h AND ",
  "HORIZONTAL+e*uLEFT+e*mRIGHTne+bLEFT DOWN HEAVY AND RIGHT UP LIGHTse*wHEAVY AND RIGHT DOWN LIGH",
  "T.e*)UP LIGHT.e*=VERTICAL LIGHTse*%LIGHT AND RIGHT DOWN HEAVY.e*:UP HEAVY.e+gVERTICAL HEAVYse*",
  "~UP HEAVY AND RIGHT DOWN LIGHToe+_IGHT ARC DOWN AND LEFT+e+^RIGHTxe+|UP AND LEFT)RIGHTte,cDIAG",
  "ONAL CROSS&e,bUPPER LEFT TO LOWER RIGHT.e,aRIGHT TO LOWER LEFTue+iOUBLE DASH HORIZONTAL*e+kVER",
  "TICALve,gWNxe*v AND HORIZONTAL&e)=LEFT&e).RIGHTte)wHORIZONTALte,dLEFTxe,l AND HEAVY RIGHTte))Q",
  "UADRUPLE DASH HORIZONTAL.e)+VERTICALte,fRIGHTte)!TRIPLE DASH HORIZONTAL*e)&VERTICALte,eUPve,m ",
  "AND HEAVY DOWN%e*(ORIZONTAL!e*bLEFT!e)_RIGHTte)yVERTICAL%e*< AND HORIZONTAL+e*nLEFT+e*fRIGHTne",
  "+cRIGHT DOWN HEAVY AND LEFT UP LIGHTte*xHEAVY AND LEFT DOWN LIGHT.e**UP LIGHT.e*>VERTICAL LIGH",
  "Tte*!LIGHT AND LEFT DOWN HEAVY.e*.UP HEAVY.e+fVERTICAL HEAVYte+aUP HEAVY AND LEFT DOWN LIGHTne",
  "+;UP DOUBLE AND HORIZONTAL SINGLE%e+yLEFT SINGLE%e+vRIGHT SINGLEqe*^HEAVY AND DOWN HORIZONTAL ",
  "LIGHT!e*,HORIZONTAL LIGHT!e*pLEFT DOWN LIGHT*e*dLIGHT!e*hRIGHT DOWN LIGHT+e)~LIGHTqe+eLIGHT AN",
  "D DOWN HORIZONTAL HEAVY!e*+HORIZONTAL HEAVY!e*tLEFT DOWN HEAVY*e*cHEAVY!e*lRIGHT DOWN HEAVY+e)",
  "|HEAVYqe+:SINGLE AND HORIZONTAL DOUBLE%e+xLEFT DOUBLE%e+uRIGHT DOUBLEne+>VERTICAL DOUBLE AND H",
  "ORIZONTAL SINGLE,e+)LEFT SINGLE,e+%RIGHT SINGLEwe*|HEAVY AND HORIZONTAL LIGHT+e*rLEFT LIGHT+e*",
  "jRIGHT LIGHTwe*?LIGHT AND HORIZONTAL HEAVY+e*oLEFT HEAVY+e*gRIGHT HEAVYwe+=SINGLE AND HORIZONT",
  "AL DOUBLE,e+(LEFT DOUBLE,e+!RIGHT DOUBLEdbs>yING GLOVEcbsl+YdbsznS SYMBOLbc?PHbbs_>RAINcbsf=EA",
  "Dec?K PERMITTED HEREebs=~ST-FEEDINGdqiVEcbs|lICKdbsl_DE WITH VEILebsd|GE AT NIGHTdbsn&EFCASEfb",
  "tbfScbs?hOCCOLIdd*KEN BARhewjCIRCLE WITH NORTHWEST ARROWhbsm,HEARTdbs|tOMdbs=jWN HEARTbiSbbs_s",
  "UBBLE TEAgbtd+ScbtcjCKETcbskcGcbsiyILDING CONSTRUCTIONcec;LLETgen~ OPERATORebsrxHORNi WITH SOU",
  "ND WAVESee:dSEYEcbse;RRITOcbsx_Sdbsya STOPdbsl)T IN SILHOUETTEeS IN SILHOUETTEcbs_pTTERgbs?~FL",
  "Yb+k(YTE ORDER MARKabse_CACTUSceh>DA UNAde;~UCEUScbsn<LENDARdbs=uL ME HANDcbso_MERAg WITH FLAS",
  "HdbsiwPINGcyNdyCELgdn CHARACTERgbst|LATION Xfe<=Rdbsr%DLEebsghYdbs?mNED FOODdbs!nOEce<~PRICORN",
  "ce?;R SLIDINGdbstvD FILE BOXfbsn>INDEXkbstu DIVIDERSdeh=E OFeednTfedw INSERTION POINTdp;ONebsh",
  "oUSEL HORSEdbsg_P STREAMERebtcaENTRY SAWdnRIAGE RETURNebs>:OTce^sSTLEcbsj&Tdbsky FACEibswe WIT",
  "H TEARS OF JOYobswhWRY SMILEce;^UTION SIGNbdnCHbegdEDI SIGNeeeLLAcbsq,LTIC CROSScd%NT SIGNeeh<",
  "RE LINE SYMBOLce?hRESbs<GJbe?>HAINSebtb;RdjRACTER TABULATIONudb SETvWITH JUSTIFICATIONledvIEeb",
  "sn^T WITH DOWNWARDS TRENDlbsn?UPWARDS TRENDybsnz AND YEN SIGNce_nECK MARKdbsowERING MEGAPHONEe",
  "bs_hSE WEDGEdbsicQUERED FLAGdbsf!RRIESfbsfaY BLOSSOMdbse<STNUTce<cI RHOdbsj?CKENdbs_zLDfbsy^RE",
  "N CROSSINGdbsk=PMUNKde?lRONcbsggOCOLATE BARdbs?dPSTICKScbsg*RISTMAS TREEce^rURCHbbshuINEMAce:k",
  "RCLE WITH ALL BUT UPPER LEFT QUADRANT BLACKme:fLEFT HALF BLACKne:hOWER HALF BLACKme:gRIGHT HAL",
  "F BLACKme:iUPPER HALF BLACKsRIGHT QUADRANT BLACKme:cVERTICAL FILLgeq>D ASTERISK OPERATORibs<_C",
  "ROSS FORMEEubs<? WITH FOUR DOTS!TWO DOTSobsqzPOMMEEne?=ING LANESieq^DASHje%eIGIT EIGHToe%bFIVE",
  "pe%aOURoe%fNINEoe!_ONEoe%dSEVENpe%cIXoe!~THREEpe!|WOoe)aZEROkeq;VISION SLASHjOT OPERATORieq?EQ",
  "UALSifa<HEAVY WHITE RIGHTWARDS ARROWjewhORIZONTAL BAR WITH NOTCHibszmINFORMATION SOURCEie&=LAT",
  "IN CAPITAL LETTER A(B(C(D(E(F(G(H(I(J(K(L(M(N(O(P(Q(R(S(T(U(V(W(X(Y(ZoSMALL LETTER A%B%C%D%E%F",
  "%G%H%I%J%K%L%M%N%O%P%Q%R%S%T%U%V%W%X%Y%Zieq.MINUSie%oNUMBER EIGHTEENqe%hLEVENpe%lFIFTEENqe%kOU",
  "RTEENpe%pNINETEENpe%nSEVENTEENqe%mIXTEENpe%gTENqe%jHIRTEENqe%iWELVEse%qNTYie|pOPEN CENTRE EIGH",
  "T POINTED STARieq,PLUSjgemOSTAL MARKieq=RING OPERATORieq:TIMESjewiRIANGLE DOWNie_;WHITE STARec",
  "eUMFLEX ACCENTfbshyS TENTcbsi!TYSCAPEjbsd? AT DUSKbbssaLAMSHELL MOBILE PHONEdbsh!PPER BOARDfbs",
  "ljING HANDS SIGNdbsi&SSICAL BUILDINGcewyEAR SCREEN SYMBOLcbsgwINKING BEER MUGSjbs>qGLASSESdbsn",
  "|PBOARDcbsrdOCK FACE EIGHT OCLOCKqbsrp-THIRTYmbsrgLEVEN OCLOCKrbsrs-THIRTYlbsraFIVE OCLOCKpbsr",
  "m-THIRTYmbsq~OUR OCLOCKpbsrl-THIRTYlbsreNINE OCLOCKpbsrq-THIRTYlbsq^ONE OCLOCKobsri-THIRTYlbsr",
  "cSEVEN OCLOCKqbsro-THIRTYmbsrbIX OCLOCKobsrn-THIRTYlbsrfTEN OCLOCKobsrr-THIRTYmbsq|HREE OCLOCK",
  "qbsrk-THIRTYmbsrhWELVE OCLOCKrbsrt-THIRTYnbsq_O OCLOCKobsrj-THIRTYfeoyWISE CONTOUR INTEGRALkbs",
  "pjDOWNWARDS AND UPWARDS OPEN CIRCLE ARROWSkfcmGAPPED CIRCLE ARROWkeoxINTEGRALkel?OPEN CIRCLE A",
  "RROWkbst_RIGHT AND LEFT SEMICIRCLE ARROWSpbsphWARDS AND LEFTWARDS OPEN CIRCLE ARROWS~LE ARROWS",
  " WITH CIRCLED ONE OVERLAYkel;TOP SEMICIRCLE ARROWded<SE UPfbsoiD BOOKhbspwLOCK WITH KEYhbso(MA",
  "ILBOX WITH LOWERED FLAGuRAISED FLAGhbsd;UMBRELLAde;jUDfbse) WITH LIGHTNINGlbse&RAINlSNOWlbse*T",
  "ORNADOdbs=&WN FACEbbs_~OATcbtczCKROACHebsgtTAIL GLASSdbs?gONUTce?eFFINcbtb~INcbsnfLLISION SYMB",
  "OLdbnONfepn EQUALSgef&SIGNcreMBINING ACUTE ACCENTwr! BELOWqsxTONE MARKls.LMOST EQUAL TO ABOVEl",
  "ehiNNUITY SYMBOLmeg.TICLOCKWISE ARROW ABOVEyeg?RING OVERLAYlehrSTERISK ABOVEttcBELOWkrjBREVEps",
  "e BELOWms&IDGE ABOVErsaBELOWkrtCANDRABINDUmrpRONpsc BELOWlr_EDILLAlrfIRCUMFLEX ACCENT%sd BELOW",
  "leg:LOCKWISE ARROW ABOVEueg>RING OVERLAYlrwOMMA ABOVEvry RIGHTqr^BELOWlz+YRILLIC DASIA PNEUMAT",
  "Atz:HUNDRED THOUSANDS SIGNtMILLIONS SIGNtz*PALATALIZATIONuz.OKRYTIEuz,SILI PNEUMATAtz)TITLOkrl",
  "DIAERESIStr> BELOWlrkOT ABOVEttb RIGHTor=BELOWmroUBLE ACUTE ACCENTrtgBREVEwtf BELOWrrsGRAVE AC",
  "CENTrtkINVERTED BREVErsjLOW LINErthMACRONx BELOWrsvOVERLINErtlRIGHTWARDS ARROW BELOWttdNG BELO",
  "WrtjTILDErrrVERTICAL LINE ABOVE*s)BELOW!ehhSTROKE OVERLAYmr,WN TACK BELOWkeg|ENCLOSING CIRCLE!",
  "ehb BACKSLASHuehaDIAMONDueheKEYCAPuehdSCREENveg~QUAREuehfUPWARD POINTING TRIANGLEls(QUALS SIGN",
  " BELOWks?FERMATAleg_OUR DOTS ABOVEks<GRAPHEME JOINERnrdVE ACCENTwrz BELOWqswTONE MARKms!EEK DI",
  "ALYTIKA TONOSqszKORONISqsyPERISPOMENIqs%YPOGEGRAMMENIks,HOMOTHETIC ABOVEmrmOK ABOVEmr)RNkruINV",
  "ERTED BREVEysf BELOWvsqIDGE BELOWtsbDOUBLE ARCH BELOWkggwKATAKANA-HIRAGANA SEMI-VOICED SOUND M",
  "ARK&ggvVOICED SOUND MARKktmLATIN SMALL LETTER A(trC(D(tnE(ttH(toI(tuM(tpO(tvR(T(tqU(txV(Xlr(EF",
  "T ANGLE ABOVEvs*BELOWqeg;RROW ABOVEvehpBELOWus_HEAD BELOWps>HALF RING ABOVEzr*BELOWreg)RPOON A",
  "BOVEpehcRIGHT ARROW ABOVE%s:BELOWpr%TACK BELOWoehlWARDS ARROW OVERLAYuehoHARPOON WITH BARB DOW",
  "NWARDSlehmONG DOUBLE SOLIDUS OVERLAYpsoSOLIDUS OVERLAYqsmTROKE OVERLAYpeg+VERTICAL LINE OVERLA",
  "YmsiW LINEkrhMACRONqsh BELOWlr:INUS SIGN BELOWks+NOT TILDE ABOVEkr|OGONEKlriVERLINEkr;PALATALI",
  "ZED HOOK BELOWlr.LUS SIGN BELOWkr<RETROFLEX HOOK BELOWmehgVERSE SOLIDUS OVERLAYrrxD COMMA ABOV",
  "Eleg<IGHT ARROW ABOVEwehqBELOWvs=HEAD ABOVE%s~ND UP ARROWHEAD BELOW!s|BELOWqtaHALF RING ABOVE!",
  "spBELOWseg*RPOON ABOVEqr&TACK BELOWpehnWARDS HARPOON WITH BARB DOWNWARDSmrnNG ABOVEpr?BELOWpeg",
  "=OVERLAYkssSEAGULL BELOWlsnHORT SOLIDUS OVERLAYrslTROKE OVERLAYqeg,VERTICAL LINE OVERLAYlsrQUA",
  "RE BELOWkeg^THREE DOTS ABOVElrgILDEpsg BELOWqskOVERLAYlehjRIPLE UNDERDOTlrvURNED COMMA ABOVEkr",
  "+UP TACK BELOWms;WARDS ARROW BELOWkrqVERTICAL LINE ABOVEyr~BELOWtsuTILDEkehkWIDE BRIDGE ABOVEk",
  "stX ABOVEms^BELOWkteZIGZAG ABOVEde;mETd~MAebtERCIAL ATled>MINUS SIGNdbs|hPASSeenuLEMENTeewcOSI",
  "TION SYMBOLebsubRESSIONcbsg<NFETTI BALLebsvoOUNDED FACEebsvnUSED FACEdeukICAL TAPERde;uJUNCTIO",
  "NdbsyySTRUCTION SIGNnbsmeWORKERden)TAINS AS MEMBERmersNORMAL SUBGROUP%eru OR EQUAL TOjes~WITH ",
  "LONG HORIZONTAL STROKEoetcOVERBARoetaVERTICAL BAR AT END OF HORIZONTAL STROKEeev~INUOUS UNDERL",
  "INE SYMBOLeeouOUR INTEGRALebshjROL KNOBSiduSEQUENCE INTRODUCERdbsi|VENIENCE STOREcbsf.OKED RIC",
  "EebsgfIEfbsgoNGcwqPTIC CAPITAL LETTER DEIwwgFEIwwmGANGIAwwkHORIwwiKHEIwweSHEIywoIMAhwrSMALL LE",
  "TTER DEIuwhFEIuwnGANGIAuwlHORIuwjKHEIuwfSHEIwwpIMAdd.YRIGHT SIGNcbtc)RALdeprRESPONDS TOcbszpUC",
  "H AND LAMPdeumNTERBOREhSINKdbsm)PLE WITH HEARTcbsjyWdbskv FACEbnRcbs?,ABcbsntEDIT CARDdbseoSCE",
  "NT MOONcbs^lICKEThbsiq BAT AND BALLcbsj)OCODILEdbs>)ISSANTde|zSS MARKge<eOF JERUSALEMje<dLORRA",
  "INEgbsq%POMMEEmbsq! WITH HALF-CIRCLE BELOWfbsg>ED FLAGSie>vSWORDSfe?+ING LANESdbsllWNcbtbpUTCH",
  "def(ZEIRO SIGNcbswkYING CAT FACEhbsv!FACEdbsqhSTAL BALLbduSIbeobUBE ROOTcbs>+CUMBERce^<P ON BL",
  "ACK SQUAREebs?fWITH STRAWdbs_iCAKEcbs>!RLING STONEeew?Y BRACKET EXTENSIONgesbLOGICAL ANDoesaOR",
  "ifa:OPdbsnrRENCY EXCHANGEjd(SIGNebsf:Y AND RICEde~bVED STEM PARAGRAPH SIGN ORNAMENTcbsgjSTARDe",
  "bszhOMScbs?kT OF MEATbbsd.YCLONEceufLINDRICITYcxfRILLIC CAPITAL LETTER Az%r WITH BREVE*%tDIAER",
  "ESISz!_BKHASIAN CHE<!~ WITH DESCENDER.%,DZE.!wHAy%^BARRED O+%| WITH DIAERESIS!!oSHKIR KAzxgEzz",
  "fIG YUSzw?YELORUSSIAN-UKRAINIAN Iyx&CHE%!; WITH DESCENDER.&iIAERESIS,!=VERTICAL STROKEyxjDEzw;",
  "JEzw>ZE!xeHEyx.Ez&a WITH DIAERESISzxzFzxqL!%g WITH TAILzxrM!%o WITH TAILzxsN!!q WITH DESCENDER",
  "+%iHOOK+%kTAILzxvR!z^ WITH TICKzxwS!!y WITH DESCENDERyznFITAyxiGHE%&k WITH DESCENDER,!cMIDDLE ",
  "HOOK,!aSTROKE>&o AND HOOK,z|UPTURNzw<JEyx!HA!!+ WITH DESCENDER+&qHOOK+&sSTROKE!x*RD SIGNyxnIz%",
  "< WITH DIAERESIS*xcGRAVE*%:MACRONzxkE!%x WITH BREVE+w.GRAVEzO!zhTIFIED BIG YUS,y~E,zdLITTLE YU",
  "SzzpZHITSA*zr WITH DOUBLE GRAVE ACCENTyw_JEyxpKA!!i WITH DESCENDER+%eHOOK+!mSTROKE+!kVERTICAL ",
  "STROKEz%mHAKASSIAN CHEzxbJEzz%OPPAzzjSIyzbLITTLE YUSzw|JEyNJEyxtOz%> WITH DIAERESISzy?MEGA(zx ",
  "WITH TITLOzzzTyxuPE!!u WITH MIDDLE HOOKzzlSIyzvROUND OMEGAy%zSCHWA(%% WITH DIAERESISzz>EMISOFT",
  " SIGNzx(HA!CHA!!?HA!xoORT I*z< WITH TAIL)xdUzx,OFT SIGNz!&TRAIGHT U.!) WITH STROKEyxxTE!!! WIT",
  "H DESCENDERzx%SE!xaHEyxyUz&e WITH DIAERESIS+&gOUBLE ACUTE*&cMACRONzztK!w=RAINIAN IEyxhVEyx;YA!",
  "y_Tzx+ERU&&m WITH DIAERESISzw^Izx:UyxmZE!!g WITH DESCENDER,%*IAERESISzxlHE%%c WITH BREVE,!eDES",
  "CENDER.%(IAERESISs%vIGATURE A IE!!sEN GHE!!.TE TSEj%bLETTER PALOCHKAjx<SMALL LETTER Ax%s WITH ",
  "BREVE(%uDIAERESISx!|BKHASIAN CHE:%a WITH DESCENDER+%.DZE+!xHAw%_BARRED O)%~ WITH DIAERESISy!pS",
  "HKIR KAxx=ExzgIG YUSxy)YELORUSSIAN-UKRAINIAN IwypCHEz!< WITH DESCENDER+&jIAERESIS*!>VERTICAL S",
  "TROKEwx^DExy!JExy(ZEyy>HEwyvEx&b WITH DIAERESISxymFxydLy%h WITH TAILxyeMy%p WITH TAILxyfNy!r W",
  "ITH DESCENDER)%jHOOK)%lTAILxyiRyz_ WITH TICKxyjSy!z WITH DESCENDERwzoFITAwx?GHEz&l WITH DESCEN",
  "DER*!dMIDDLE HOOK*!bSTROKE<&p AND HOOK*z~UPTURNxy%JEwynHAy!, WITH DESCENDER)&rHOOK)&tSTROKEyys",
  "RD SIGNwyaIx%= WITH DIAERESIS(y<GRAVE(%;MACRONxx_Ey%y WITH BREVE)yyGRAVExOyziTIFIED BIG YUS*za",
  "E*zeLITTLE YUSxzqZHITSA(zs WITH DOUBLE GRAVE ACCENTwy+JEwycKAy!j WITH DESCENDER)%fHOOK)!nSTROK",
  "E)!lVERTICAL STROKEx%nHAKASSIAN CHExy;JExz&OPPAxzkSIwzcLITTLE YUSxy,JEwNJEwygOx%? WITH DIAERES",
  "ISxy^MEGA%zy WITH TITLOxz!Tw%qPALOCHKAxyhEy!v WITH MIDDLE HOOKxzmSIwzwROUND OMEGAw%!SCHWA%%& W",
  "ITH DIAERESISxz?EMISOFT SIGNxyqHAyCHAy!^HAyybORT I(z= WITH TAIL&y=UxyuOFT SIGNx!(TRAIGHT U+!* ",
  "WITH STROKEwykTEy!% WITH DESCENDERxyoSEyy:HEwylUx&f WITH DIAERESIS)&hOUBLE ACUTE(&dMACRONxzuKy",
  "y&RAINIAN IEwx>VEwyxYAyy|TxytERU!&n WITH DIAERESISxy*IxywUwx~ZEy!h WITH DESCENDER*%+IAERESISxx",
  "|HEz%d WITH BREVE*!fDESCENDER+%)IAERESISq%wIGATURE A IEy!tEN GHEy!:TE TSEjz(THOUSANDS SIGN"]

def characterNamesDToK : List String := [
  "aec.DAGGERgbsug KNIFEcei~LET SYMBOLcbsmqNCERdbsf^GOce,.RK SHADEgbsr.UNGLASSEScbsniSH SYMBOLefa",
  "sED TRIANGLE-HEADED RIGHTWARDS ARROWcqTA LINK ESCAPEbC1c2c3c4cdjSbbs_wEAF PERSONcbse?CIDUOUS T",
  "REEeeymMAL EXPONENT SYMBOLiewuSEPARATOR KEY SYMBOLdbsuaREASE FONT SIZE SYMBOLcbs^aERceh;GREE C",
  "ELSIUSheh_FAHRENHEIThd^SIGNcc<Ldc<ETEdbsylIVERY TRUCKdepvTA EQUAL TOcex!NTISTRY SYMBOL LIGHT D",
  "OWN AND HORIZONTAL_exs WITH CIRCLE~exvITH TRIANGLE~exyITH WAVExex%UP AND HORIZONTAL?ext WITH C",
  "IRCLE~exwH TRIANGLE~exzH WAVExex(VERTICAL AND BOTTOM LEFT|exqRIGHT;ex&TOP LEFT?expRIGHT;exxWAV",
  "E+exrWITH CIRCLE<exuTRIANGLEcbsjaPARTMENT STOREcbsi%RELICT HOUSE BUILDINGce;tSCENDING NODEdbsi",
  "(ERTg ISLANDdbss;KTOP COMPUTERibst=WINDOWcbi*VANAGARI ABBREVIATION SIGNmbidCUTE ACCENTlbitDAND",
  "Ambi(IGIT EIGHTrbi!FIVEsbizOURrbi)NINErbiwONErbi&SEVENsbi%IXrbiyTHREEsbixWOrbivZEROmbiuOUBLE D",
  "ANDAlbicGRAVE ACCENTlbgoLETTER AtAtbgzItbg(Utbi;WsbhiBAtbjbBAtbhjHAsbg:CAubi,NDRA AzbgwEzbg!Ot",
  "bg;HAsbhcDAtbg_DAubjaDAvbilHAubg|HAtbhdHAsbgyEsbinFAsbg+GAtbi_GAtbg,HAubijHAtbi~LOTTAL STOPsbh",
  "vHAtbi^EAVY YAsbgqItIsbg<JAtHAtbi|JAsbg)KAtHAubiiHAsbhoLAtLAuLAsbhkMAubi>RWARI DDAsbheNAtbg.GA",
  "tbg~NAubhfNAtbg>YAsbg&Otbi.EtOEsbhgPAtHAsbihQAsbhmRAtbimHAtbhnRAsbhuSAtbhsHAubgnORT AybgxEybg%",
  "OtbhtSAsbhaTAtHAtbg?TAuHAsbgsUtbi<EtbgtUubi=EsbhrVAtbgvOCALIC L%biqL!bguR%bipRsbhlYAtbioYAsbik",
  "ZAtbi?HAlbh~OMlbglSIGN ANUSVARArbhzVAGRAHAqbgkCANDRABINDUqbi+HIGH SPACING DOTqbgjINVERTED CAND",
  "RABINDUqbhyNUKTAqbh^VIRAMAsbgmSARGAmbibTRESS SIGN ANUDATTAxbiaUDATTAlbh!VOWEL SIGN AAxbh;Ixbh?",
  "Uxbh|Wwbh,CANDRA E(bieLONG E(bh<Owbh:Ewbh%IxIwbh>OxbhwExOEwbh_PRISHTHAMATRA Ewbh.SHORT E&bh=Ow",
  "bh(UxbifExbh)UybigEwbirVOCALIC L*L)bh*R*RduICE CONTROL FOURprONEpdjSTRINGptTHREEqsWObd,IAERESI",
  "SdetfMETER SIGNeer:OND OPERATORibsnaSHAPE WITH A DOT INSIDEce>bE FACE-1j2j3j4j5j6dbs!jSEL LOCO",
  "MOTIVEcepiFFERENCE BETWEENcblGIT EIGHTle%~ FULL STOPgbiFIVEke%^ FULL STOPhbhOURke%? FULL STOPg",
  "bmNINEke&a FULL STOPgbeONEje%< FULL STOPgbkSEVENle%| FULL STOPhbjIXje%_ FULL STOPgbgTHREEle%> ",
  "FULL STOPhbfWOje%= FULL STOPgbdZEROde>nRAM FOR GREATER YANGue>qINle>pLESSER YANGte>oINceujMENS",
  "ION ORIGINce~>NGBAT CIRCLED SANS-SERIF DIGIT EIGHT,e~;FIVE.e~:OUR,e~?NINE,e~+ONE,e~=SEVEN.e~<I",
  "X,e~.THREE.e~,WO%e~^NUMBER TENie~(NEGATIVE CIRCLED DIGIT EIGHT*e~!FIVE+e~zOUR*e~)NINE*e~wONE*e",
  "~&SEVEN+e~%IX*e~yTHREE+e~xWOze~*NUMBER TENzfaeSANS-SERIF DIGIT EIGHT_fabFIVE|faaOUR_fafNINE_e~",
  "_ONE_fadSEVEN|facIX_e~~THREE|e~|WO;fagNUMBER TENcewrRECT CURRENT SYMBOL FORM TWOhbsh(HITce?,SA",
  "BLED CARebsv(PPOINTED BUT RELIEVED FACEnbsvwFACEdewaCONTINUOUS UNDERLINE SYMBOLdbs?zGUISED FAC",
  "EcgdgTTO MARKceojVIDESebs>nNG MASKefwSION SIGNken?LASHjer=TIMESde?cORCE SYMBOLcbtb>YA LAMPcbsw",
  "aZZY FACEgbsnlSYMBOLbqLEbbs|gNA DOUBLE HELIXbbsy+O NOT LITTER SYMBOLcbst+CUMENTibstn WITH PICT",
  "UREobstlTEXTs AND PICTUREcbs^yDOcen*ES NOT CONTAIN AS MEMBERues(NORMAL SUBGROUP:es* OR EQUALje",
  "okDIVIDEjernFORCEjeqmPRECEDEqess OR EQUALlerlOVEjeqnSUCCEEDqest OR EQUALcbsj^Gdbsk( FACEc;LLAR",
  " SIGNdbsktPHINcef=NG SIGNcbsy%ORcqjT ABOVEeeo)MINUSeer;OPERATOReen>PLUSde:bTED CIRCLEieeeROSSh",
  "btd)LINE FACEcqnUBLE ACUTE ACCENThe)sCIRCLED DIGIT EIGHTve)pFIVEwe)oOURve)tNINEve)lONEve)rSEVE",
  "Nwe)qIXve)nTHREEwe)mWOpe)uNUMBER TENifbfURLY LOOPhec:DAGGERhedrEXCLAMATION MARKhec,HIGH-REVERS",
  "ED-9 QUOTATION MARKheosINTEGRALleseRSECTIONheczLOW LINEkec+-9 QUOTATION MARKhediPRIMEmgd, QUOT",
  "ATION MARKhed&QUESTION MARKhescSUBSETjPERSEThesfUNIONhey&VERTICAL BARterk DOUBLE RIGHT TURNSTI",
  "LEqecyLINEgeh:-STRUCK CAPITAL CwejfGAMMAweibHweijNweinPxejgIweioQweirRweiyZoejmITALIC CAPITAL ",
  "DvSMALL D%E%I%JoejhN-ARY SUMMATIONoejeSMALL GAMMAuejdPIge>:D FEMALE SIGNiMALE SIGNdbsgeGHNUTcb",
  "sq:VE OF PEACEcetjWN ARROWHEADfes:RIGHT DIAGONAL ELLIPSISferdTACKebsqu-POINTING RED TRIANGLEob",
  "sqwSMALL RED TRIANGLEebs=dWARD FACING HOOKubs=f WITH DOTqbs=eNOTCHED HOOK&bs=g WITH DOTielaS A",
  "RROWpelu FROM BARqeniLEFTWARDS OF UPWARDS ARROWqel.WITH CORNER LEFTWARDSvem*DOUBLE STROKEvel*T",
  "IP LEFTWARDSzRIGHTWARDSkem:DASHED ARROWlemtOUBLE ARROWkemdHARPOON WITH BARB LEFTWARDS&emcRIGHT",
  "WARDSkemkPAIRED ARROWSkfckQUADRUPLE ARROWkeloTWO HEADED ARROWkem^WHITE ARROWkel&ZIGZAG ARROWbe",
  "f_RACHMA SIGNdfaoFTING POINT RIGHTWARDS ARROWdbsj(GONgbskz FACEcbslrESSce^bIVE SLOW SIGNcbskrO",
  "MEDARY CAMELdbs=*OLING FACEdbtblP OF BLOODebsnhLETcbs>pUM WITH DRUMSTICKSbbs?>UCKcbs?aMPLINGbb",
  "sn+VDabso!E-MAIL SYMBOLbbs?=AGLEcbsk^Rdbsff OF MAIZEhRICEebs_cWITH HEARING AIDde<&THfbsed GLOB",
  "E AMERICASnSIA-AUSTRALIAmbsecEUROPE-AFRICAhex|ROUNDce=*ST SYRIAC CROSSbbs>?GGbe|oIGHT PETALLED",
  " OUTLINED BLACK FLORETTEhe|bOINTED BLACK STARoPINWHEEL STARoe|eRECTILINEAR BLACK STARge|aSPOKE",
  "D ASTERISKge|xTEARDROP-SPOKED PROPELLER ASTERISKfe=yH NOTEbex+JECT SYMBOLbetgLECTRIC ARROWjbsn",
  "bLIGHT BULBjbspsPLUGjbsp~TORCHieylAL INTERSECTIONden%MENT OFkfby OPENING UPWARDSles>WITH DOT A",
  "BOVEqes;LONG HORIZONTAL STROKEqes?OVERBARqes|TWO HORIZONTAL STROKESqes_UNDERBARqes<VERTICAL BA",
  "R AT END OF HORIZONTAL STROKEdbsj~PHANTdbsz%VATORcbs_;FbecwM DASHdecdQUADdecfSPACEcbs^=OJI COM",
  "PONENT BALDqbs^<CURLY HAIRqbs^;RED HAIRqbs^>WHITE HAIRgbsjpMODIFIER FITZPATRICK TYPE-1-2+3+4+5",
  "+6cewbPHASIS SYMBOLdbst(TY DOCUMENTgbtc*NESThbstxOTEkbstz PADnbstyGEgbst)PAGEkSgenySETbecvN DA",
  "SHdeccQUADdeceSPACEcdqD OF GUARDED AREAhkLINEhzMEDIUMhen,PROOFkdqTECTED AREAhdaSELECTED AREAhd",
  "TEXTiRANSMISSIONtx BLOCKebsp+WITH LEFTWARDS ARROW ABOVEcfQdfUIRYceweTER SYMBOLce_dVELOPEibso& ",
  "WITH DOWNWARDS ARROW ABOVEobssdLIGHTNINGbkOLczMceTbdqPAbeshQUAL AND PARALLEL TOgepwTO BY DEFIN",
  "ITIONjespOR GREATER-THANmesoLESS-THANmesqPRECEDESmSUCCEEDSfepoS COLONhbqSIGNdeptIANGULAR TOeep",
  "gVALENT TObeudRASE TO THE LEFTnet|RIGHTbdaSAc%Cd%APEcei.TIMATED SYMBOLiepsSbxTBcdXbeh?ULER CON",
  "STANTcef>RO SIGNeef%-CURRENCY SIGNebsjePEAN CASTLEjbsi<POST OFFICEbbse>VERGREEN TREEbeo*XCESSd",
  ",LAMATION MARKmed)QUESTION MARKcbsvjPRESSIONLESS FACEc>(TENDED ARABIC-INDIC DIGIT EIGHT&>!FIVE",
  "(>zOUR&>)NINE&>wONE&>&SEVEN(>%IX&>yTHREE(>xWO&>vZEROdbsmkRATERRESTRIAL ALIENbbsk?YEdbslnGLASSE",
  "Sdbsk>Sabs?!FACE HOLDING BACK TEARSfbsmtMASSAGEfbs=,PALMfbsvdSAVOURING DELICIOUS FOODgbsv^CREA",
  "MING IN FEARfbsvqTHROWING A KISSfbsvlWITH COLD SWEATmbs=%WBOY HATkbtd(DIAGONAL MOUTHkbs==FINGE",
  "R COVERING CLOSED LIPSkbs=qHEAD-BANDAGEkbsv&LOOK OF TRIUMPHkbswcMEDICAL MASKlbs_xONOCLEkbswqNO",
  " GOOD GESTUREkOK GESTURElbs=:NE EYEBROW RAISEDlbtd%PEN EYES AND HAND OVER MOUTHpbsv=MOUTHubsv?",
  " AND COLD SWEATvbs=^VOMITINGkbs?uPARTY HORN AND PARTY HATlbtd&EEKING EYElbs?%LEADING EYESkbswp",
  "ROLLING EYESkbsvtSTUCK-OUT TONGUE!bsvv AND TIGHTLY-CLOSED EYES*bsvuWINKING EYEkbsu>TEARS OF JO",
  "Ylbs=nHERMOMETERkbs?vUNEVEN EYES AND WAVY MOUTHjbswbOUT MOUTHdejcSIMILE SIGNdbsjbTORYcbs_,IRYc",
  "bs_nLAFELdbsfkLEN LEAFee^fING DIAGONAL IN WHITE CIRCLE IN BLACK SQUAREcbsl;MILYce<gRSI SYMBOLc",
  "bsg+THER CHRISTMAScbstjX ICONebsotMACHINEbbsv+EARFUL FACEdbtc&THERce<%MALE SIGNdd:ININE ORDINA",
  "L INDICATORcbs>iNCERcbshpRRIS WHEELee^%YbmFbbsisIELD HOCKEY STICK AND BALLcecuGURE DASHhecjSPA",
  "CEcbstwLE CABINETfbsn,FOLDERf&SEPARATORdbshmM FRAMESfbspdPROJECTORcbsp|REebsyd ENGINEgbs|jXTIN",
  "GUISHERebs|cCRACKERebsg.WORK SPARKLERibsg,Sdbs>vST PLACE MEDALge<yQUARTER MOONsbsei SYMBOLtbse",
  "qWITH FACEgeeqSTRONG ISOLATEcbskgSHebsga CAKE WITH SWIRL DESIGNee.|EYEebshrING POLE AND FISHdb",
  "sleTED HAND SIGNceebVE DOT PUNCTUATIONbe^!LAG IN HOLEdbs^(MINGOdbs?+T SHOEebtdmBREADeeyjNESSce",
  ">(EUR-DE-LISdbsnkXED BICEPScbsn)OPPY DISKde~gRAL HEARTde>zWERgbsh. PLAYING CARDSied_UNCTUATION",
  " MARKcbsv|USHED FACEcbtcwYdbs>(ING DISChbsseENVELOPEhbs!pSAUCERbbse+OGdbsd:GYcbstsLDERcbtdoNDU",
  "Ecbs^_OTebsl(PRINTScentR ALLderiCESdbsgpK AND KNIFEobsgy WITH PLATEdmM FEEDdbs?bTUNE COOKIEce^",
  "zUNTAINde_(R BALLOON-SPOKED ASTERISKfe_*CLUB-SPOKED ASTERISKfeedDOT MARKjeeaPUNCTUATIONfbsfiLE",
  "AF CLOVERfe_&TEARDROP-SPOKED ASTERISKeech-PER-EM SPACEeeocTH ROOTcbs?|X FACEbej=RACTION NUMERA",
  "TOR ONEjedzSLASHdbstqME WITH AN XlbstoPICTURElTILEScbs?xEEZING FACEdef)NCH FRANC SIGNjbsf>IESc",
  "bsf~IED SHRIMPcbsk*OG FACEdbskmNT-FACING BABY CHICKgfa*TILTED SHADOWED WHITE RIGHTWARDS ARROWd",
  "et>WNfbsv)ING FACE WITH OPEN MOUTHb&SceeqIbe^;UEL PUMPce,xLL BLOCKfbsekMOON SYMBOLkbsesWITH FA",
  "CEffb(OUTER JOINfbbSTOPe+k;WIDTH AMPERSANDlPOSTROPHEl+k?STERISKk+p,BROKEN BARk+p(CENT SIGNl+mc",
  "IRCUMFLEX ACCENTl+llOLONm+k_MMAo+lrERCIAL ATk+ljDIGIT EIGHTq+lgFIVEr+lfOURq+lkNINEq+lcONEq+liS",
  "EVENr+lhIXq+leTHREEr+ldWOq+lbZEROl+k.OLLAR SIGNk+loEQUALS SIGNl+k*XCLAMATION MARKk+k~FULL STOP",
  "k+meGRAVE ACCENTm+lpEATER-THAN SIGNk+k|HYPHEN-MINUSk+lsLATIN CAPITAL LETTER A*B*C*D*E*F*G*H*I*",
  "J*K*L*M*N*O*P*Q*R*S*T*U*V*W*X*Y*Zq+mfSMALL LETTER A(B(C(D(E(F(G(H(I(J(K(L(M(N(O(P(Q(R(S(T(U(V(",
  "W(X(Y(ZlEFT CURLY BRACKETp+k=PARENTHESISp+l~SQUARE BRACKETp+m:WHITE PARENTHESISm+lnSS-THAN SIG",
  "Nl+mdOW LINEk+p+MACRONk+p*NOT SIGNl+k,UMBER SIGNk+k:PERCENT SIGNl+k^LUS SIGNl+p)OUND SIGNk+lqQ",
  "UESTION MARKm+k+OTATION MARKk+maREVERSE SOLIDUSl+m,IGHT CURLY BRACKETq+k>PARENTHESISq+mbSQUARE",
  " BRACKETq+m;WHITE PARENTHESISk+lmSEMICOLONl+laOLIDUSk+m.TILDEk+m+VERTICAL LINEk+p:WON SIGNk+p.",
  "YEN SIGNceejNCTION APPLICATIONde?fERAL URNcex~SEabsh+GAME DIEcbs_lRLICbe>!EARee^v WITH HANDLES",
  "je^uOUT HUBcbsm%M STONEde<<INIcbs_<NIEceo+OMETRIC PROPORTIONjepkALLY EQUAL TOrephIVALENT TOdcf",
  "!RGIAN CAPITAL LETTER AENzce!NyBANycfhCANzcfkHAR!cfgINzcfjILyce(DONyENyce&GANzcfdHANycfnHAE!cf",
  "rRzcfoEzIEzcfsOEyce.INycfmJHANzcfiILyce:KANzcfcHARyce;LASyMANyNARyONyPARzcfbHARycfeQARyce_RAEy",
  "SANzcffHINyce,TAN!ce~RyUNyce*VINycfqWEycflXANycfuYNyce+ZENzce^HARjcg(LETTER AENrcg!INrcf(NqBAN",
  "qcgkCANrcgnHARscgjINrcgmILqcf+DONqcgyELIFIrcf,NqcgwFIqcf*GANrcggHANqcgqHAEscguRtcg)D SIGNrcgrE",
  "rIErcgvOEqcf<INqcgpJHANrcglILqcf=KANrcgfHARqcg*LABIAL SIGNscf>SqMANqNARqONqPARrcgeHARqcghQARqc",
  "gaRAEqSANrcgiHINqcf;TANscgcRrcgzURNED GANqcgdUNqcf.VINqcgtWEqcgoXANqcgxYNqcf:ZENrcf~HARjcg%PAR",
  "AGRAPH SEPARATORcef|RMAN PENNY SIGNcgdwTA MARKbbsmiHOSTbei|IMEL SYMBOLcbs^gRAFFE FACEdbsl,Lebs",
  "zoS SYMBOLbbs>^LASS OF MILKcbsefOBE WITH MERIDIANSdbs_|VESdbseuWING STARbbs>tOAL NETdbsj;Tcbs?",
  ")GGLEScbsinLFERcbs^bRILLAbbshbRADUATION CAPdbsfpPESdcgVE ACCENTcep.EATER-THAN BUT NOT EQUAL TO",
  "yeszIVALENT TOnesnEQUAL TO OR LESS-THANnep)OR EQUAL TOtep~IVALENT TOqeqdLESS-THANoep+VER EQUAL",
  " TOnbrSIGNnesjWITH DOTdudEK ANO TELEIAgv*BETA SYMBOLgw+CAPITAL DOTTED LUNATE SIGMA SYMBOLov)KA",
  "I SYMBOLounLETTER ALPHA!uc WITH TONOSwt%RCHAIC SAMPIvuoBETAvu:CHIvuqDELTAvEPSILON&ue WITH TONO",
  "SwutTAyuf WITH TONOSvupGAMMAvtzHETAvuvIOTAzu= WITH DIALYTIKA*ugTONOSvuwKAPPAvLAMDAvMUvNUvu<OME",
  "GA!ul WITH TONOSxu%ICRON&ui WITH TONOSvt*PAMPHYLIAN DIGAMMAwu.HIwu&Iwu;SIvu(RHOvw&SANwwzHOwu*I",
  "GMAvTAUwuuHETAvu,UPSILON&u> WITH DIALYTIKA.ukTONOSvu!XIvt?YOTvusZETApw%UNATE SIGMA SYMBOLow,RE",
  "VERSED DOTTED LUNATE SIGMA SYMBOLxw*LUNATE SIGMA SYMBOLowwTHETA SYMBOLgubDIALYTIKA TONOSgv=KAI",
  " SYMBOLiwsPPA SYMBOLgv>LETTER ARCHAIC KOPPAnv|DIGAMMAnwaKOPPAnwcSAMPIov^TIGMAnwvYOTht)OWER NUM",
  "ERAL SIGNhwxUNATE EPSILON SYMBOLnwuSIGMA SYMBOLgt(NUMERAL SIGNgv;PHI SYMBOLhI SYMBOLgt>QUESTIO",
  "N MARKgwyREVERSED LUNATE EPSILON SYMBOLhwtHO SYMBOLkw)WITH STROKE SYMBOLgt<SMALL DOTTED LUNATE",
  " SIGMA SYMBOLmvaLETTER ALPHAyu? WITH TONOSuv?RCHAIC KOPPA%t&SAMPItvbBETAtvwCHItvdDELTAuv~IGAMM",
  "AtveEPSILON!u^ WITH TONOSuvgTAwu_ WITH TONOStvrFINAL SIGMAtvcGAMMAtt!HETAtviIOTAxvz WITH DIALY",
  "TIKA=um AND TONOS(u|TONOStvjKAPPAuwbOPPAtvkLAMDAtMUtNUtvyOMEGAyv( WITH TONOSvvoICRON!v% WITH T",
  "ONOStt+PAMPHYLIAN DIGAMMAuvvHIuvpIuvxSItvqRHOtwdSAMPIvw(Nuw!HOuvsIGMAuv_TIGMAtvtTAUuvhHETAtvuU",
  "PSILON!v! WITH DIALYTIKA^u~ AND TONOS+v&TONOStvnXItvfZETAmt=REVERSED DOTTED LUNATE SIGMA SYMBO",
  "Lvt;LUNATE SIGMA SYMBOLgv+THETA SYMBOLhuaONOSgv.UPSILON WITH ACUTE AND HOOK SYMBOLtDIAERESIS A",
  "ND HOOK SYMBOLtv,HOOK SYMBOLgt:YPOGEGRAMMENIebsfxN APPLEgbsokBOOKgbsm>HEARTgbs><SALADcbsv;IMAC",
  "ING FACEdbswdNNING CAT FACE WITH SMILING EYESjbsu<FACEnbs=< WITH ONE LARGE AND ONE SMALL EYEtb",
  "su=SMILING EYESubs=;TAR EYESc(OUP SEPARATORdbsm;WING HEARTb(SbegaUARANI SIGNebsmpDSMANcbs^.IDE",
  " DOGdbsh=TARaecmHAIR SPACEebsmuCUTc+p_LFWIDTH BLACK SQUAREk+p^DOWNWARDS ARROWk+p<FORMS LIGHT V",
  "ERTICALk+okHANGUL FILLERr+o~LETTER AzEy+o;CHIEUCHz+o.IEUCy+peEz+pdOz+pxUy+o?HIEUHy+pzIz+o,EUNG",
  "y+o<KHIEUKHz+olIYEOK)+on-SIOSy+o%MIEUMy+ooNIEUN(-CIEUC)HIEUHy+pjOz+pmEy+o>PHIEUPHz+o&IEUP(+o)-",
  "SIOSy+otRIEUL(+o!-HIEUH)+ouKIYEOK)MIEUM)+ozPHIEUPH*+owIEUP)SIOS)THIEUTHy+o*SIOSz+o:SANGCIEUC(+",
  "omKIYEOK(+o(PIEUP(+o+SIOS(+osTIKEUTy+o=THIEUTHz+orIKEUTy+pqUy+pkWA!Ez+psE!+prOz+ptIy+pbYA!Ez+p",
  "iE!+phOz+pyIz+ppOz+puUk+m?IDEOGRAPHIC COMMAw+m<FULL STOPk+niKATAKANA LETTER A!+nlE!+n,HA%+n;E%",
  "+n.I%+n<O%+n:U!+njI!+nnKA%+nqE%+noI%+nrO%+npU!+n=MA%+n^E%+n>I%+n_O%+n?U!+ohN%+n&A%+n*E%+n(I%+n",
  "+O%+n)U!+nmO!+obRA%+oeE%+ocI%+ofO%+odU!+nsSA%+nvE%+ntI%+m|MALL A++nbE++m~I++ncO++ngTU++naU++nd",
  "YA,+nfO,+neU%+nwO%+nuU!+nxTA%+n!E%+nyI%+n%O%+nzU!+nkU!+ogWA%+m_O!+n|YA%+oaO%+n~Ut+m^MIDDLE DOT",
  "t+ojSEMI-VOICED SOUND MARKt+oiVOICED SOUND MARKs+nh-HIRAGANA PROLONGED SOUND MARKk+m=LEFT CORN",
  "ER BRACKETo+p=WARDS ARROWk+m>RIGHT CORNER BRACKETp+p?WARDS ARROWk+p>UPWARDS ARROWk+p|WHITE CIR",
  "CLEcbsf&MBURGERdbsqbMERge>t AND PICKle<iSICKLElbsz;WRENCHdbtcsSAebsk+TER FACEcbs=zND WITH INDE",
  "X AND MIDDLE FINGERS CROSSEDqbtd^FINGER AND THUMB CROSSEDebslwBAGgbs>mLLebs=ySHAKEdgefGUL DOUB",
  "LE DOT TONE MARKhgeeSINGLE DOT TONE MARKegd|ZHOU NUMERAL EIGHTrgd?FIVEsgd>OURrgd~NINErgd;ONErg",
  "d_SEVENsgd^IXrgeoTENsgeqHIRTYtgd=REEsgepWENTYtgd<OcbswwPPY PERSON RAISING ONE HANDcbstgRD DISK",
  "cbskkTCHING CHICKbbshvEADPHONEebtcmSTONEje^: GRAVEYARD SYMBOLdbswuR-NO-EVIL MONKEYebsm~T DECOR",
  "ATIONgbtecHANDSgbsm<WITH ARROWlbsm_RIBBONlbshcTIP ON THE LEFTde_|VY ASTERISKge_sBALLOT XhfayLA",
  "CK CURVED DOWNWARDS AND RIGHTWARDS ARROWtUPWARDS AND RIGHTWARDS ARROWme~eHEARTlfa~-FEATHERED N",
  "ORTH EAST ARROWwfa|RIGHTWARDS ARROWwfa_SOUTH EAST ARROWge_oCHECK MARKje|tVRON SNOWFLAKEhe^kIRC",
  "LE WITH STROKE AND TWO DOTS ABOVEhfa%ONCAVE-POINTED BLACK RIGHTWARDS ARROWgfatDASHED TRIANGLE-",
  "HEADED RIGHTWARDS ARROWhfakIVISION SIGNhbsnsOLLAR SIGNie||UBLE COMMA QUOTATION MARK ORNAMENTne",
  "|_TURNED COMMA QUOTATION MARK ORNAMENTge|fEIGHT POINTED RECTILINEAR BLACK STARme|yTEARDROP-SPO",
  "KED PROPELLER ASTERISKhe~cXCLAMATION MARK ORNAMENTxe|;SYMBOLge_)FOUR BALLOON-SPOKED ASTERISKge",
  "_uGREEK CROSSge~dHEART EXCLAMATION MARK ORNAMENTgbsq+LATIN CROSShe~qEFT-POINTING ANGLE BRACKET",
  " ORNAMENT!e~oQUOTATION MARK ORNAMENThe~aOW DOUBLE COMMA QUOTATION MARK ORNAMENTke|~SINGLE COMM",
  "A QUOTATION MARK ORNAMENTjfa+ER RIGHT-SHADOWED WHITE RIGHTWARDS ARROWgfajMINUS SIGNhe_qULTIPLI",
  "CATION XgfanNORTH EAST ARROWge_wOPEN CENTRE CROSShe_?UTLINED BLACK STARgfaiPLUS SIGNge~rRIGHT-",
  "POINTING ANGLE BRACKET ORNAMENT%e~pQUOTATION MARK ORNAMENTlfamWARDS ARROWhfapOUND-TIPPED RIGHT",
  "WARDS ARROWge|^SINGLE COMMA QUOTATION MARK ORNAMENTne|?TURNED COMMA QUOTATION MARK ORNAMENThfa",
  "lOUTH EAST ARROWhe|vPARKLEgfbbTEARDROP-SHANKED RIGHTWARDS ARROWqe|kPOKED ASTERISKwe|qPINWHEEL ",
  "ASTERISKhfarRIANGLE-HEADED RIGHTWARDS ARROWgfa,UPPER RIGHT-SHADOWED WHITE RIGHTWARDS ARROWge|>",
  "VERTICAL BARgfbdWEDGE-TAILED RIGHTWARDS ARROWhe^cHITE DOWN-POINTING TRIANGLEhfahIDE-HEADED RIG",
  "HTWARDS ARROWc,dBREW LETTER ALEFp,vYINo,eBETo,gDALETo,nFINAL KAFu,qMEMu,sNUNu,wPEu,yTSADIo,fGI",
  "MELo,hHEq,kTo,oKAFoLAMEDo,rMEMo,tNUNo,xPEo,!QOFoRESHo,uSAMEKHp,&HINoTAVp,lETp,zSADIo,iVAVo,mYO",
  "Do,jZAYINi,:IGATURE YIDDISH DOUBLE VAV*,<YODy,;VAV YODh+<MARK LOWER DOTm+;UPPER DOTh+>POINT QA",
  "MATS QATANn+*RAFEn+,SHIN DOToIN DOTi,=UNCTUATION GERESHwSHAYIMt+)MAQAFt+=NUN HAFUKHAt++PASEQt+",
  ":SOF PASUQh,.YOD TRIANGLEcbs^iDGEHOGcbsx*LICOPTERdewgM SYMBOLee?<ET WITH WHITE CROSScbsfhRBder",
  "yMITIAN CONJUGATE MATRIXbbsfcIBISCUScbspmGH BRIGHTNESS SYMBOLfc>OCTET PRESETfe>.VOLTAGE SIGNeb",
  "sl!-HEELED SHOEfbsx.SPEED TRAINq WITH BULLET NOSEcbs?*KING BOOTcbszzNDU TEMPLEcbs^pPPOPOTAMUSc",
  "gg%RAGANA DIGRAPH YORIjggzITERATION MARKjgeyLETTER AqgfzBArgf.Ergf&Irgf<Orgf*UqgfjDArgfqErgflI",
  "rgfsOrgfoUqge)Eqge.GArge?Erge;Irge_Orge=UqgfyHArgf,Ergf%Irgf;Orgf)Uqge!Iqge,KArge>Erge:Irge^Or",
  "ge<Uqgf>MArgf_Ergf?Irgf|Orgf^UqggpNrgftArgfwErgfuIrgfxOrgfvUqge+Oqgf!PArgf:Ergf(Irgf=Orgf+Uqgg",
  "fRArggiErgggIrggjOrgghUqge|SArgfeErgfaIrgexMALL Awge(EwgezIwggrKAxEwge*OwgfmTUwge%UwggkWAwgf~Y",
  "AxggdOxggbUrgfgOrgfcUqgfiTArgfpErgfkIrgfrOrgfnUqge&UqggqVUqgglWArggnErggmIrggoOqggaYArggeOrggc",
  "Uqge~ZArgffErgfbIrgfhOrgfdUjgg!VOICED ITERATION MARKce^tSTORIC SITEbbsqdOCHOcbsr*LEceo,MOTHETI",
  "CcbsgkNEY POTfbskeBEEcbtcdOKcc>PcecxRIZONTAL BARlec?ELLIPSISlexaLINE EXTENSIONle>_MALE WITH ST",
  "ROKE SIGNlexlSCAN LINE-1v3v7v9ljTABULATIONvdb SETwWITH JUSTIFICATIONmbsywRAFFIC LIGHTdbsj.SEfb",
  "sk% FACEgbsiiRACINGcbsi=SPITALce;(T BEVERAGEebse.DOGebse|PEPPERee=wSPRINGSdbsi^ELcet+URGLASSje",
  "yx WITH FLOWING SANDdethSEfbsi, BUILDINGobsizSgbsi.WITH GARDENbegcRYVNIA SIGNbjTcdcJcdbSbbs=sU",
  "GGING FACEcbsnpNDRED POINTS SYMBOLcbsv>SHED FACEcbsz!TbecsYPHENgedy BULLETgba-MINUSgec^ATION P",
  "OINTcewmSTERESIS SYMBOLabs=!I LOVE YOU HAND SIGNbbsgdCE CREAMfbs_rUBEebsitHOCKEY STICK AND PUC",
  "Kee^*SKATEbep!DENTICAL TOgbtcqFICATION CARDdgdjOGRAPHIC CLOSING MARKngdeOMMAmgecDEPARTING TONE",
  " MARKmENTERING TONE MARKmgdfFULL STOPmgevHALF FILL SPACEmgdiITERATION MARKmgeaLEVEL TONE MARKm",
  "gdkNUMBER ZEROmgebRISING TONE MARKmgddSPACEmgenTELEGRAPH LINE FEED SEPARATOR SYMBOLmgeuVARIATI",
  "ON INDICATORberwMAGE OFiepm OR APPROXIMATELY EQUAL TOcbsmmPbbsoyNBOX TRAYcbso%COMING ENVELOPEd",
  "bst~REASE FONT SIZE SYMBOLfenzMENTcc_Ddc_EXfbteb POINTING AT THE VIEWERdeghIAN RUPEE SIGNceoeF",
  "INITYdbsmoORMATION DESK PERSONm&SEPARATOR FOURw*ONEw(THREExWOnejaOURCEceeuHIBIT ARABIC FORM SH",
  "APINGieesSYMMETRIC SWAPPINGcbsp=PUT SYMBOL FOR LATIN CAPITAL LETTERSxbsp_LETTERSxbsp>SMALL LET",
  "TERSrNUMBERSrSYMBOLScev|SERTION SYMBOLceorTEGRALiew~ EXTENSIONeerzRCALATEf+qjLINEAR ANNOTATION",
  " ANCHORxSEPARATORxTERMINATORge><OCKED FEMALE AND MALE SIGNfedsROBANGfeopSECTIONce:nVERSE BULLE",
  "TiWHITE CIRCLEfd!TED EXCLAMATION MARKjeo;LAZY Sjei%OHM SIGNje^oPENTAGRAMjelQUESTION MARKjed^UN",
  "DERTIEdeemISIBLE PLUSkeelSEPARATORkeekTIMESbbsjcZAKAYA LANTERNabsg)JACK-O-LANTERNce^.PANESE BA",
  "NK SYMBOLjbsjdCASTLEjbsg^DOLLSjbsmhGOBLINjgdhINDUSTRIAL STANDARD SYMBOLjbsmgOGREjbsi;POST OFFI",
  "CEjbsqjSYMBOL FOR BEGINNERcbtdsRbbslqEANSbbs|dIGSAW PUZZLE PIECEbbsr<OYSTICKbbs>hUGGLINGce?jNO",
  "ce<)PITERabsq;KAABAcbs^mNGAROOcgi,TAKANA DIGRAPH KOTOjgi*ITERATION MARKjgg)LETTER Aqgh*BArgh?E",
  "rgh.Irgh|Orgh<UqghpDArghwErghrIrghyOrghuUqgg;Eqgg?GArghbErgg_IrghdOrgg~Uqgh)HArgh>Ergh,Irgh_Or",
  "gh;Uqgg+Iqgg>KArghaErgg^IrghcOrgg|UqgiaMArgidErgibIrgieOrgicUqgivNrghzArgh&Ergh!Irgh(Orgh%Uqgg",
  "=Oqgh+PArgh^Ergh:Irgh~Orgh=UqgilRArgioErgimIrgipOrginUqgheSArghkErghgIrgg(MALL Awgg:Ewgg*Iwgix",
  "KAxEwgg<OwghsTUwgg,UwgiqWAwgifYAxgijOxgihUrghmOrghiUqghoTArghvErghqIrghxOrghtUqgg.UqgizVArgi%E",
  "rgi!Irgi&OrgiwUqgirWArgitErgisIrgiuOqgigYArgikOrgiiUqghfZArghlErghhIrghnOrghjUjgi(MIDDLE DOTjg",
  "i+VOICED ITERATION MARKigg&-HIRAGANA DOUBLE HYPHENsgi)PROLONGED SOUND MARKsggySEMI-VOICED SOUN",
  "D MARKsggxVOICED SOUND MARKbei)ELVIN SIGNcbspxYdeuaBOARDibss< AND MOUSEdbsp<CAP TENbbslsIMONOc",
  "ef?P SIGNcbsm&SSebsmy MARKebswiING CAT FACE WITH CLOSED EYESibsvpFACEmbsvs WITH CLOSED EYESsbs",
  "vrSMILING EYEScbtbuTEcbs>|WIFRUITbbs_vNEELING PERSONcbtciOTbbskpOALA"]

def characterNamesL : List String := [
  "aeiiL B BAR SYMBOLbbs?(AB COATdbsjlELcbs>%CROSSE STICK AND BALLcbtccDDERdbskfY BEETLEcbsqoRGE ",
  "BLUE CIRCLElbsqqDIAMONDge:;CIRCLEgfb*DOWN TACKgbsqpORANGE DIAMONDgbsqnRED CIRCLEgfb)UP TACKdeg",
  "mI SIGNce<zST QUARTER MOONrbsem SYMBOLsbserWITH FACEcbuTIN CAPITAL LETTER Awen WITH ACUTE&f,BR",
  "EVE,d>y AND ACUTE=d>+DOT BELOW=d>!GRAVE=d>&HOOK ABOVE=d>)TILDE&klCARON(eoIRCUMFLEX=d>o AND ACU",
  "TE|d>wDOT BELOW|d>qGRAVE|d>sHOOK ABOVE|d>uTILDE&eqDIAERESIS<k& AND MACRON(mkOT ABOVE<k) AND MA",
  "CRON+d>kBELOW)lrUBLE GRAVE&emGRAVE&d>mHOOK ABOVE&ltINVERTED BREVE&f*MACRON&f:OGONEK&erRING ABO",
  "VE=ll AND ACUTE,d:)BELOW&m)STROKE&epTILDEwesExln WITH ACUTE(k+MACRONwi,FRICAN DvbvBwd:+ WITH D",
  "OT ABOVE+d:.BELOW&izHOOK&d:;LINE BELOW&m>STROKE&i!TOPBARvbwCwf< WITH ACUTE&f|CARON(etEDILLA:d:",
  "= AND ACUTE(f>IRCUMFLEX&f^DOT ABOVE&i*HOOK&m*STROKEvbxDwga WITH CARON(d;bEDILLA(d;dIRCUMFLEX B",
  "ELOW&d:?DOT ABOVE+d:_BELOW&i.HOOK&d:~LINE BELOW&ldSMALL LETTER Z_kd WITH CARON(gcTROKE&i:TOPBA",
  "RwlcZxkc WITH CARONvbyEwev WITH ACUTE&ggBREVE&gmCARON(mmEDILLA:d;n AND BREVE(ewIRCUMFLEX=d>? A",
  "ND ACUTE|d?dDOT BELOW|d>_GRAVE|d>~HOOK ABOVE|d?bTILDE>d;jBELOW&exDIAERESIS(giOT ABOVE+d>.BELOW",
  ")lvUBLE GRAVE&euGRAVE&d>;HOOK ABOVE&lxINVERTED BREVE&geMACRON.d;h AND ACUTE>d;fGRAVE&gkOGONEK&",
  "m_STROKE&d>=TILDE,d;l BELOWwhpNGwjuSHwe&THwj.ZHy REVERSEDzk~WITH CARONvbzFwd;p WITH DOT ABOVE&",
  "i^HOOKvb!Gwlf WITH ACUTE&gqBREVE&k;CARON(guEDILLA(goIRCUMFLEX&gsDOT ABOVE&i|HOOK&d;rMACRON&k.S",
  "TROKEwi~AMMAwjnHAwm<LOTTAL STOPvb%Hwd;% WITH BREVE BELOW&mcCARON(d;zEDILLA(gwIRCUMFLEX&d;xDIAE",
  "RESIS(d;tOT ABOVE+d;vBELOW&gySTROKEwlhWAIRvb&Iwez WITH ACUTE&g)BREVE&knCARON(e!IRCUMFLEX&DIAER",
  "ESIS<d;* AND ACUTE(g.OT ABOVE+d?hBELOW)lzUBLE GRAVE&eyGRAVE&d?fHOOK ABOVE&l%INVERTED BREVE&g&M",
  "ACRON&g+OGONEK&jcSTROKE&g!TILDE,d;( BELOWwjbOTAvb(Jwg= WITH CIRCUMFLEX&m~STROKEvb)Kwd;, WITH A",
  "CUTE&k=CARON(g?EDILLA&d;:DOT BELOW&jdHOOK&d;<LINE BELOWvb*Lwg| WITH ACUTE&m,BAR&hcCARON(haEDIL",
  "LA(d<aIRCUMFLEX BELOW&d;>DOT BELOW<d;^ AND MACRON&d;|LINE BELOW&heMIDDLE DOT&kgSMALL LETTER J(",
  "hgTROKEwkfJvb+Mwd<c WITH ACUTE&d<eDOT ABOVE+d<gBELOWwd^kIDDLE-WELSH LL.d^mVvb,Nwhi WITH ACUTE&",
  "hmCARON(hkEDILLA(d<oIRCUMFLEX BELOW&d<iDOT ABOVE+d<kBELOW&ljGRAVE&jiLEFT HOOK(d<mINE BELOW(meO",
  "NG RIGHT LEG&kjSMALL LETTER J&e(TILDEwkiJvb.Owe* WITH ACUTE&htBREVE&kpCARON(e+IRCUMFLEX=d?n AN",
  "D ACUTE|d?vDOT BELOW|d?pGRAVE|d?rHOOK ABOVE|d?tTILDE&e.DIAERESIS<mo AND MACRON(msOT ABOVE<mu A",
  "ND MACRON+d?jBELOW)hvUBLE ACUTE:l(GRAVE&e)GRAVE&d?lHOOK ABOVE)jlRN+d?x AND ACUTE<d?*DOT BELOW<",
  "d?zGRAVE<d?%HOOK ABOVE<d?(TILDE&l*INVERTED BREVE&hrMACRON.d<w AND ACUTE>d<uGRAVE(jkIDDLE TILDE",
  "&k?OGONEK.k_ AND MACRON&e;STROKE.lp AND ACUTE&e,TILDE,d<q AND ACUTE=d<sDIAERESIS=mqMACRONwjnIw",
  "i?PEN E!i)OwmgUvb:Pwd<y WITH ACUTE&d<!DOT ABOVE&jpHOOKvb;QvRwhz WITH ACUTE&h(CARON(h%EDILLA&d<",
  "&DOT ABOVE+d<)BELOW<d<+ AND MACRON)l,UBLE GRAVE&l:INVERTED BREVE&d<.LINE BELOW&ndSTROKEwi=EVER",
  "SED Evb=Swh* WITH ACUTE,d<? AND DOT ABOVE&h<CARON,d<_ AND DOT ABOVE(h:EDILLA(h,IRCUMFLEX(l^OMM",
  "A BELOW&d<;DOT ABOVE+d<=BELOW<d<~ AND DOT ABOVEwi>CHWAwd>iHARP SwnbMALL Q WITH HOOK TAILvb>Twh",
  "^ WITH CARON(h>EDILLA(d=hIRCUMFLEX BELOW(l|OMMA BELOW&m.DIAGONAL STROKE(d=bOT ABOVE+d=dBELOW&j",
  "xHOOK&d=fLINE BELOW&jzRETROFLEX HOOK&h|STROKEwe_HORNwj>ONE FIVE!i&SIX!jsTWOwjhURNED M&m^Vvb?Uw",
  "m? BARxe=WITH ACUTE&ieBREVE&krCARON(e>IRCUMFLEX=d=n BELOW&e?DIAERESIS<kv AND ACUTE_kxCARON_kzG",
  "RAVE_ktMACRON=d=jBELOW(d?,OT BELOW)iiUBLE ACUTE:l<GRAVE&e<GRAVE&d?:HOOK ABOVE)j!RN+d?< AND ACU",
  "TE<d^aDOT BELOW<d?>GRAVE<d?^HOOK ABOVE<d?|TILDE&l>INVERTED BREVE&icMACRON.d=r AND DIAERESIS&ik",
  "OGONEK&igRING ABOVE&iaTILDE,d=p AND ACUTE.d=lBELOWwj&PSILONvb^Vwd=v WITH DOT BELOW&j(HOOK&d=tT",
  "ILDEvb_Wwd=z WITH ACUTE&imCIRCUMFLEX&d=%DIAERESIS(d=(OT ABOVE+d=*BELOW&d=xGRAVEwliYNNvb|Xwd=: ",
  "WITH DIAERESIS(d=,OT ABOVEvb~Ywe^ WITH ACUTE&ioCIRCUMFLEX&iqDIAERESIS(d=<OT ABOVE+d^eBELOW&d^c",
  "GRAVE&j)HOOK+d^g ABOVE&d^oLOOP&mwMACRON&nfSTROKE&d^iTILDEwmaOGHvcaZwir WITH ACUTE&ivCARON(d=>I",
  "RCUMFLEX&itDOT ABOVE+d=^BELOW&miHOOK&d=|LINE BELOW&j+STROKEpg;IGATURE IJxhxOEhe_xROSSgkaLETTER",
  " ALVEOLAR CLICKnpkBIDENTAL PERCUSSIVEpo.LABIAL CLICKwpjPERCUSSIVEnj|DENTAL CLICKno)GLOTTAL STO",
  "Pzo| WITH STROKEno+INVERTED GLOTTAL STOP.j^ WITH STROKEnj~LATERAL CLICKno*PHARYNGEAL VOICED FR",
  "ICATIVEnkbRETROFLEX CLICKpjvVERSED ESH LOOPwo~GLOTTAL STOP WITH STROKEno:SMALL CAPITAL B%nzG&o",
  "< WITH HOOK%H%n,I&olNVERTED R%o^L%n|N%oaOE%okR%ozYoo,TRETCHED Cnj=TWO WITH STROKEnj_WYNNnjrYRg",
  "chSMALL LETTER Aufa WITH ACUTE!f.BREVE*d>z AND ACUTE;d>,DOT BELOW;d>%GRAVE;d>(HOOK ABOVE;d>*TI",
  "LDE!kmCARON%fbIRCUMFLEX;d>p AND ACUTE^d>xDOT BELOW^d>rGRAVE^d>tHOOK ABOVE^d>vTILDE!fdDIAERESIS",
  ":k( AND MACRON%mlOT ABOVE:k* AND MACRON)d>lBELOW&lsUBLE GRAVE!e~GRAVE!d>nHOOK ABOVE!luINVERTED",
  " BREVE!f+MACRON!f;OGONEK!d>eRIGHT HALF RING&feNG ABOVE;lm AND ACUTE*d:*BELOW!fcTILDEuffEvlo WI",
  "TH ACUTE%k,MACRONuniLPHAtciBud:, WITH DOT ABOVE)d::BELOW!nkHOOK!d:<LINE BELOW!iySTROKE!i%TOPBA",
  "Run~ARRED OtcjCuf= WITH ACUTE!f~CARON%fgEDILLA,d:> AND ACUTE%f?IRCUMFLEX%nmURL!f_DOT ABOVE!i+H",
  "OOK!m+STROKEuobLOSED OMEGA%o;PEN E!nvREVERSED OPEN EtckDugb WITH CARON%d;cEDILLA%d;eIRCUMFLEX ",
  "BELOW%mfURL!d:^DOT ABOVE)d:|BELOW!noHOOK!d;aLINE BELOW!gdSTROKE!nnTAIL%i;OPBARum&B DIGRAPHud>j",
  "ELTAvpbZH DIGRAPHug:OTLESS I%m%J&nw WITH STROKE?oo AND HOOKuleZvpa DIGRAPH(pc WITH CURLwkeWITH",
  " CARONtclEufi WITH ACUTE!ghBREVE!gnCARON%mnEDILLA,d;o AND BREVE%fjIRCUMFLEX;d>^ AND ACUTE^d?eD",
  "OT BELOW^d>|GRAVE^d?aHOOK ABOVE^d?cTILDE<d;kBELOW!fkDIAERESIS%gjOT ABOVE)d>:BELOW&lwUBLE GRAVE",
  "!fhGRAVE!d><HOOK ABOVE!lyINVERTED BREVE!gfMACRON+d;i AND ACUTE<d;gGRAVE!glOGONEK!m|STROKE!d>>T",
  "ILDE*d;m BELOWuhqNGuonSHwoq WITH CURLufpTHuo&ZHwj; REVERSEDxlaWITH CARON(o(URL&j<TAILtcmFud;q ",
  "WITH DOT ABOVE!i_HOOKupgENG DIGRAPHtcnGulg WITH ACUTE!grBREVE!k<CARON%gvEDILLA%gpIRCUMFLEX!gtD",
  "OT ABOVE!nxHOOK!d;sMACRON!k:STROKEun!AMMAujoHAum=LOTTAL STOPtcoHud;& WITH BREVE BELOW!mdCARON%",
  "d;!EDILLA%gxIRCUMFLEX!d;yDIAERESIS%d;uOT ABOVE)d;wBELOW!n(HOOK!d>aLINE BELOW!gzSTROKEun)ENG WI",
  "TH HOOKujaVtcpIufm WITH ACUTE!g*BREVE!koCARON%fnIRCUMFLEX!DIAERESIS:d;+ AND ACUTE%d?iOT BELOW&",
  "l!UBLE GRAVE!flGRAVE!d?gHOOK ABOVE!l&INVERTED BREVE!g(MACRON!g,OGONEK!n*STROKE!g%TILDE*d;) BEL",
  "OWun+OTAtcqJulb WITH CARON%g>IRCUMFLEX%o>ROSSED-TAIL!naSTROKEtcrKud;. WITH ACUTE!k>CARON%g^EDI",
  "LLA!d;;DOT BELOW!jeHOOK!d;=LINE BELOWug_RAtcsLug~ WITH ACUTE!jfBAR%n:ELT!hdCARON%hbEDILLA%d<bI",
  "RCUMFLEX BELOW%myURL!d;?DOT BELOW:d;_ AND MACRON!d;~LINE BELOW!hfMIDDLE DOT,n.TILDE!n;RETROFLE",
  "X HOOK!hhSTROKEujgAMBDA WITH STROKEun<EZHukhJuixONG Szd>g WITH DIAGONAL STROKE+d>fOT ABOVE*d>h",
  "HIGH STROKEuphS DIGRAPHuZ DIGRAPHtctMud<d WITH ACUTE!d<fDOT ABOVE)d<hBELOW!n?HOOKud^lIDDLE-WEL",
  "SH LL+d^nVtcuNuho PRECEDED BY APOSTROPHEvhjWITH ACUTE!hnCARON%hlEDILLA%d<pIRCUMFLEX BELOW%mzUR",
  "L!d<jDOT ABOVE)d<lBELOW!lkGRAVE!n^LEFT HOOK%d<nINE BELOW%jjONG RIGHT LEG!n_RETROFLEX HOOK!fqTI",
  "LDEukkJtcvOufs WITH ACUTE!huBREVE!kqCARON%ftIRCUMFLEX;d?o AND ACUTE^d?wDOT BELOW^d?qGRAVE^d?sH",
  "OOK ABOVE^d?uTILDE!fvDIAERESIS:mp AND MACRON%mtOT ABOVE:mv AND MACRON)d?kBELOW&hwUBLE ACUTE,l)",
  "GRAVE!frGRAVE!d?mHOOK ABOVE&jmRN)d?y AND ACUTE:d?+DOT BELOW:d?!GRAVE:d?&HOOK ABOVE:d?)TILDE!l+",
  "INVERTED BREVE!hsMACRON+d<x AND ACUTE<d<vGRAVE!k^OGONEK+k| AND MACRON!fxSTROKE+lq AND ACUTE!fu",
  "TILDE*d<r AND ACUTE;d<tDIAERESIS;mrMACRONujoIunsPEN EynlOumhUtcwPud<z WITH ACUTE!d<%DOT ABOVE!",
  "jqHOOKuocHItcxQuo_ WITH HOOK)nc TAILum(P DIGRAPHtcyRuh! WITH ACUTE!h)CARON%h&EDILLA!d<(DOT ABO",
  "VE)d<*BELOW:d<, AND MACRON&l.UBLE GRAVE!oiFISHHOOK!l;INVERTED BREVE!d<:LINE BELOW%ogONG LEG!ne",
  "STROKE!ohTAILun%AMS HORNuek)EVERSED C&npE&ntOPEN E. WITH HOOK&ojR WITH FISHHOOKtczSuh+ WITH AC",
  "UTE*d<^ AND DOT ABOVE!h=CARON*d<| AND DOT ABOVE%h;EDILLA%h.IRCUMFLEX%l_OMMA BELOW!d<<DOT ABOVE",
  ")d<>BELOW:d=a AND DOT ABOVE!omHOOK!m:SWASH TAILunqCHWAy WITH HOOKvnyRIPT Gue|HARP SuopQUAT REV",
  "ERSED ESHtc!Tuh_ WITH CARON%h?EDILLA%d=iIRCUMFLEX BELOW%l~OMMA BELOW%m!URL!d>bDIAERESIS%d=cOT ",
  "ABOVE)d=eBELOW!jyHOOK!d=gLINE BELOW!jwPALATAL HOOK!osRETROFLEX HOOK!h~STROKEupfC DIGRAPH WITH ",
  "CURLupeESH DIGRAPHuf(HORNuj?ONE FIVEyi(SIXyjtTWOupdS DIGRAPHunhURNED A%njLPHA!i<DELTA!k%E!n&H%",
  "pl WITH FISHHOOK^ AND TAIL!o?K!n=M% WITH LONG LEG!odR%of WITH HOOK,oeLONG LEG!orT!owV!W!Ytc%Uu",
  "ot BARvfzWITH ACUTE!ifBREVE!ksCARON%f!IRCUMFLEX;d=o BELOW!f%DIAERESIS:kw AND ACUTE?kyCARON?k!G",
  "RAVE?kuMACRON;d=kBELOW%d?.OT BELOW&ijUBLE ACUTE,l=GRAVE!fyGRAVE!d?;HOOK ABOVE&j%RN)d?= AND ACU",
  "TE:d^bDOT BELOW:d??GRAVE:d?_HOOK ABOVE:d?~TILDE!l?INVERTED BREVE!idMACRON+d=s AND DIAERESIS!il",
  "OGONEK!ihRING ABOVE!ibTILDE*d=q AND ACUTE+d=mBELOWuouPSILONtc&Vud=w WITH DOT BELOW!ovHOOK!d=uT",
  "ILDEtc(Wud=! WITH ACUTE!inCIRCUMFLEX!d=&DIAERESIS%d=)OT ABOVE)d=+BELOW!d=yGRAVE!d>cRING ABOVEt",
  "c)Xud=; WITH DIAERESIS%d=.OT ABOVEtc*Yuf& WITH ACUTE!ipCIRCUMFLEX!f)DIAERESIS%d==OT ABOVE)d^fB",
  "ELOW!d^dGRAVE!j*HOOK)d^h ABOVE!d^pLOOP!mxMACRON!d>dRING ABOVE!ngSTROKE!d^jTILDEumbOGHtc+Zuis W",
  "ITH ACUTE!iwCARON%d=?IRCUMFLEX%o%URL!iuDOT ABOVE)d=_BELOW!mjHOOK!d=~LINE BELOW!o!RETROFLEX HOO",
  "K!j,STROKE%m;WASH TAILn*+^IGATURE FFx*+~IxLw*+_IwLvg<IJv*,bLONG S TvhyOEv*,cSTheflUBSCRIPT SMA",
  "LL LETTER A(E(efqH(K(L(M(N(efnO(efvP(S)efpCHWA(efxT(efoXbbsflEAF FLUTTERING IN WINDebs?nY GREE",
  "NcbsofDGERcfb+FT AND RIGHT DOUBLE TURNSTILEpTACKhbsutGER BUBBLEigdlLE BRACKETfgdtBLACK LENTICU",
  "LAR BRACKETfetnCEILINGge^dLOSED ENTRYggdpORNER BRACKETgc,URLY BRACKETsew> LOWER HOOKtew=MIDDLE",
  " PIECEtew<UPPER HOOKfgdnDOUBLE ANGLE BRACKETmec)QUOTATION MARKfe,!FIVE EIGHTHS BLOCKgetpLOORfe",
  ":lHALF BLACK CIRCLEme,%OCKkbs=cCIRCLEqbs=b WITH DOTwbs<|FOUR DOTSwTHREE DOTSxWO DOTShbsr>ND TE",
  "LEPHONE RECEIVERfbszjLUGGAGEffb.MULTIMAPfer?NORMAL FACTOR SEMIDIRECT PRODUCTfe,)ONE EIGHTH BLO",
  "CKje,(QUARTER BLOCKgfb%UTER JOINf?PARENTHESISqew! EXTENSIONrLOWER HOOKrewzUPPER HOOKfelbRIGHT ",
  "ARROWqenp WITH DOUBLE VERTICAL STROKEwel%STROKEwenmVERTICAL STROKElemuDOUBLE ARROWxemo WITH ST",
  "ROKElensOPEN-HEADED ARROWlel!WAVE ARROWffblS-SHAPED BAG DELIMITERger_EMIDIRECT PRODUCThe,yVEN ",
  "EIGHTHS BLOCKgec!INGLE QUOTATION MARKgbsunPEECH BUBBLEgcbQUARE BRACKETtew+ EXTENSIONuLOWER COR",
  "NERuew*UPPER CORNERued!WITH QUILLfercTACKgbsurHOUGHT BUBBLEhe,&REE EIGHTHS BLOCKle,zQUARTERS B",
  "LOCKggdxORTOISE SHELL BRACKETfexjVERTICAL BOX LINEfgdrWHITE CORNER BRACKETlgdzLENTICULAR BRACK",
  "ETlgd(SQUARE BRACKETlgd%TORTOISE SHELL BRACKETgbssnRITING HANDebs=w-FACING FISTfe^nHANDED INTE",
  "RLACED PENTAGRAMfeubPOINTING ANGLE BRACKETod;DOUBLE ANGLE QUOTATION MARKobsptMAGNIFYING GLASSf",
  "fa(SHADED WHITE RIGHTWARDS ARROWfec~TO-RIGHT EMBEDDINGoeeoISOLATEoecqMARKoedcOVERRIDEeek_WARDS",
  " ARROWpelr FROM BARqemgOVER RIGHTWARDS ARROWqem;TO BARwel= OVER RIGHTWARDS ARROW TO BARqennWIT",
  "H DOUBLE VERTICAL STROKEvelwHOOKvelyLOOPvelhSTROKEvelpTAILvenkVERTICAL STROKEkem+DASHED ARROWl",
  "emqOUBLE ARROWwemn WITH STROKEkbtd|HANDmemlRPOON OVER RIGHTWARDS HARPOONsel_WITH BARB DOWNWARD",
  "S&el^UPWARDSkenqOPEN-HEADED ARROWkemhPAIRED ARROWSkem&SQUIGGLE ARROWkem!TRIPLE ARROWlellWO HEA",
  "DED ARROWkeljWAVE ARROWlem=HITE ARROWcbs^^GcbsftMONce<>Odbsj!PARDcep,SS-THAN BUT NOT EQUAL TOv",
  "esyIVALENT TOkesmEQUAL TO OR GREATER-THANkep(OR EQUAL TOqep|IVALENT TOneqcGREATER-THANlep*VER ",
  "EQUAL TOkbpSIGNkesiWITH DOTcbshiVEL SLIDERbkFbe<^IBRAcbsu(GHT CHECK MARKge~sLEFT TORTOISE SHEL",
  "L BRACKET ORNAMENTgbsx=RAILhe~tIGHT TORTOISE SHELL BRACKET ORNAMENTge,+SHADEge|<VERTICAL BARfe",
  ";pNINGjbsux MOODobsuw BUBBLEckNE FEEDfec_SEPARATORflTABULATIONpdd SETdbsp(K SYMBOLebssgED PAPE",
  "RCLIPScbs?.ON FACEcbsuhPSebsmrTICKcef*RA SIGNcegeVRE TOURNOIS SIGNcbs^cZARDbbs^nLAMAbbs^sOBSTE",
  "RcbspyCKebspv WITH INK PENeoING-SHIFT ONEoZEROceonGICAL ANDiORcbsgiLLIPOPcfbsNG DIVISIONgbtb|R",
  "UMffcqLEFT RIGHT ARROWqfctDOUBLE ARROWkfb;TACKjfcoWARDS ARROWufcu FROM BARpfcrDOUBLE ARROW%fcw",
  " FROM BARffb:RIGHT TACKkfcpWARDS ARROWvfcv FROM BARqfcsDOUBLE ARROW&fcx FROM BARqSQUIGGLE ARRO",
  "Wcbs|oTION BOTTLEdbtc(UScbsv<UDLY CRYING FACEcbsi_VE HOTELfbsmzLETTERced:W ASTERISKebtcrBATTER",
  "YfbsplRIGHTNESS SYMBOLegd.DOUBLE PRIME QUOTATION MARKecfLINEde^_ER BLADE SCISSORSge,uFIVE EIGH",
  "THS BLOCKge,tHALF BLOCKle:wCIRCLEle:qINVERSE WHITE CIRCLEgbssjLEFT BALLPOINT PENlbssmCRAYONlbs",
  "skFOUNTAIN PENlPAINTBRUSHmbssiENCILle:uQUADRANT CIRCULAR ARCle;cTRIANGLEge,qONE EIGHTH BLOCKkQ",
  "UARTER BLOCKgfbzRIGHT CORNER WITH DOTme|&DROP-SHADOWED WHITE SQUAREme_iPENCILme:tQUADRANT CIRC",
  "ULAR ARCmbsqxSHADOWED WHITE CIRCLE%e|)SQUAREme;hTRIANGLEge,wSEVEN EIGHTHS BLOCKge,sTHREE EIGHT",
  "HS BLOCKme,vQUARTERS BLOCKce.~ZENGEhfb= DIVIDED BY HORIZONTAL RULEbec~REceeoIcecqMcedcObbs|nUG",
  "GAGEcbtc>NGSbbs=+YING FACE"]

def characterNamesMToS : List String := [
  "ad?MACRONcbs_+GEdbtbxIC WANDdbs|mNETcbr+!HJONG TILE AUTUMNnbr+(BACKpbr+wMBOOnCHRYSANTHEMUMnbr*",
  "*EAST WINDobr+jIGHT OF BAMBOOSwbr+aCHARACTERSxbr+sIRCLESnbr+gFIVE OF BAMBOOSvbr*_CHARACTERSwbr",
  "+pIRCLESobr+fOUR OF BAMBOOSvbr*^CHARACTERSwbr+oIRCLESnbr*;GREEN DRAGONnbr+&JOKERnbr+kNINE OF B",
  "AMBOOSvbr+bCHARACTERSwbr+tIRCLESobr*.ORTH WINDnbr+cONE OF BAMBOOSubr*=CHARACTERSvbr+lIRCLESobr",
  "+vRCHIDnbr+uPLUMnbr*:RED DRAGONnbr+iSEVEN OF BAMBOOSwbr*~CHARACTERSxbr+rIRCLESobr+hIX OF BAMBO",
  "OSubr*|CHARACTERSvbr+qIRCLESobr*+OUTH WINDobr+yPRINGoUMMERnbr+eTHREE OF BAMBOOSwbr*?CHARACTERS",
  "xbr+nIRCLESobr+dWO OF BAMBOOSubr*>CHARACTERSvbr+mIRCLESnbr*,WEST WINDobr*<HITE DRAGONobr+%INTE",
  "Rce>=LE AND FEMALE SIGNfe<(SIGNfe>?WITH STROKE AND MALE AND FEMALE SIGNre>>SIGNde_!TESE CROSSc",
  "bs^xMMOTHcbsl.Ndbsl< AND WOMAN HOLDING HANDSebsr=DANCINGebsr+IN BUSINESS SUIT LEVITATINGhbs>dT",
  "UXEDOebsl~WITH GUA PI MAOjTURBANdegkAT SIGNdbs?oGOdbslyS SHOEdbsr&TELPIECE CLOCKdbs_eUAL WHEEL",
  "CHAIRce^wP SYMBOL FOR LIGHTHOUSEdbsfjLE LEAFce?bRRIAGE SYMBOLdbs>zTIAL ARTS UNIFORMcegSCULINE ",
  "ORDINAL INDICATORdgesU MARKcbs_qTE DRINKdbohsHEMATICAL BOLD CAPITAL A%bowxLPHA!bohtB%bowyETA!b",
  "ohuC%boxaHI!bohvD%bow!ELTA%bo&|IGAMMA!bohwE%bow%PSILON%bow(TA!bohxF!G%bowzAMMA!bohzH!I%bow*OTA",
  "!boh%J!K%bow+APPA!boh(L%bow,AMDA!boh)M%bow.U!boh*N%bow:U!boh+O%boxcMEGA&bow<ICRON!boh,P%bow~HI",
  "%bow=I%boxbSI!boh.Q!R%bow>HO!boh;S%bow^IGMA!boh<T%bow_AU%bow)HETA*bow? SYMBOL!boh=U%bow|PSILON",
  "!boh>V!W!X%bow;I!boh_Y!Z%bow&ETAsbo(kDIGIT EIGHTybo(hFIVEzbo(gOURybo(lNINEybo(dONEybo(jSEVENzb",
  "o(iIXybo(fTHREEzbo(eWOybo(cZEROsbox)EPSILON SYMBOLsbopwFRAKTUR CAPITAL A.B.C.D.E.F.G.H.I.J.K.L",
  ".M.N.O.P.Q.R.S.T.U.V.W.X.Y.Z!SMALL A+B+C+D+E+F+G+H+I+J+K+L+M+N+O+P+Q+R+S+T+U+V+W+X+Y+Zsboj+ITA",
  "LIC CAPITAL A.bozeLPHA,boj,B.bozfETA,boj.C.boz!HI,boj:D.bozhELTA,boj;E.boziPSILON.bozkTA,boj<F",
  ",G.bozgAMMA,boj>H,I.bozmOTA,boj^J,K.boznAPPA,boj|L.bozoAMDA,boj~M.bozpU,bokaN.bozqU,bokbO.boz&",
  "MEGA:bozsICRON,bokcP.bozzHI.boztI.boz%SI,bokdQ,R.bozuHO,bokfS.bozwIGMA,bokgT.bozxAU.bozlHETA=b",
  "ozv SYMBOL,bokhU.bozyPSILON,bokiV,W,X.bozrI,boklY,Z.bozjETAzbo!lEPSILON SYMBOLzbo!nKAPPA SYMBO",
  "Lzboz(NABLAzbo!kPARTIAL DIFFERENTIAL!bo!oHI SYMBOL!bo!qI SYMBOLzbo!pRHO SYMBOLzboknSMALL A+boz",
  ")LPHA*bokoB+boz*ETA*bokpC+bo!hHI*bokqD+boz,ELTA*bokrE+boz.PSILON+boz;TA*boksF+bo!cINAL SIGMA*b",
  "oktG+boz+AMMA*bokuH*I+boz=OTA*bokwJ*K+boz>APPA*bokyL+boz?AMDA*bokzM+boz^U*bok!N+boz_U*bok%O+bo",
  "!jMEGA,boz~ICRON*bok&P+bo!gHI+bo!aI+bo!iSI*bok(Q*R+bo!bHO*bok*S+bo!dIGMA*bok+T+bo!eAU+boz<HETA",
  "*bok,U+bo!fPSILON*bok.V*W*X+boz|I*bok<Y*Z+boz:ETAzbo!mTHETA SYMBOLsbox+KAPPA SYMBOLsboxdNABLAs",
  "box(PARTIAL DIFFERENTIALtbox,HI SYMBOLtbox:I SYMBOLsbox.RHO SYMBOLsbombSCRIPT CAPITAL A,B,C,D,",
  "E,F,G,H,I,J,K,L,M,N,O,P,Q,R,S,T,U,V,W,X,Y,ZzSMALL A*B*C*D*E*F*G*H*I*J*K*L*M*N*O*P*Q*R*S*T*U*V*",
  "W*X*Y*Ztboh~MALL AzboxeLPHAyboiaBzboxfETAyboibCzbox!HIyboicDzboxhELTAzbo&~IGAMMAyboidEzboxiPSI",
  "LONzboxkTAyboieFzboxvINAL SIGMAyboifGzboxgAMMAyboigHyIzboxmOTAyboiiJyKzboxnAPPAyboikLzboxoAMDA",
  "yboilMzboxpUyboimNzboxqUyboinOzbox&MEGA!boxsICRONyboioPzboxzHIzboxtIzbox%SIyboipQyRzboxuHOyboi",
  "rSzboxwIGMAyboisTzboxxAUzboxlHETAyboitUzboxyPSILONyboiuVyWyXzboxrIyboixYyZzboxjETAsbox*THETA S",
  "YMBOLnboopDOUBLE-STRUCK CAPITAL A:B:boosD:E:F:G:booxI:J:K:L:M:boo(O:boo,S:T:U:V:W:X:Y%bo(uDIGI",
  "T EIGHT,bo(rFIVE.bo(qOUR,bo(vNINE,bo(nONE,bo(tSEVEN.bo(sIX,bo(pTHREE.bo(oWO,bo(mZERO%boo^SMALL",
  " A,B,C,D,E,F,G,H,I,J,K,L,M,N,O,P,Q,R,S,T,U,V,W,X,Y,ZnfbtFALLING DIAGONALoboniRAKTUR CAPITAL A(",
  "B(bonlD(E(F(G(bonrJ(K(L(M(N(O(P(Q(bon!S(T(U(V(W(X(Yvbon.SMALL A%B%C%D%E%F%G%H%I%J%K%L%M%N%O%P%",
  "Q%R%S%T%U%V%W%X%Y%ZnboizITALIC CAPITAL A(box;LPHA&boi!B(box<ETA&boi%C(boynHI&boi&D(box>ELTA&bo",
  "i(E(box?PSILON(box_TA&boi)F&G(box=AMMA&boi+H&I(box~OTA&boi.J&K(boyaAPPA&boi;L(boybAMDA&boi<M(b",
  "oycU&boi=N(boydU&boi>O(boypMEGA)boyfICRON&boi?P(boymHI(boygI(boyoSI&boi^Q&R(boyhHO&boi|S(boyjI",
  "GMA&boi~T(boykAU(box|HETA,boyi SYMBOL&bojaU(boylPSILON&bojbV&W&X(boyeI&bojeY&Z(box^ETAuboy|EPS",
  "ILON SYMBOLubozaKAPPA SYMBOLuboyqNABLAuboy_PARTIAL DIFFERENTIALvbozbHI SYMBOLvbozdI SYMBOLuboz",
  "cRHO SYMBOLubojgSMALL A%boyrLPHA!bojhB%boysETA!bojiC%boy>HI!bojjD%boyuELTA%bowtOTLESS I.J!bojk",
  "E%boyvPSILON%boyxTA!bojlF%boy.INAL SIGMA!bojmG%boytAMMA!bojoI%boyzOTA!bojpJ!K%boy!APPA!bojrL%b",
  "oy%AMDA!bojsM%boy&U!bojtN%boy(U!bojuO%boy^MEGA&boy*ICRON!bojvP%boy=HI%boy+I%boy?SI!bojwQ!R%boy",
  ",HO!bojyS%boy:IGMA!bojzT%boy;AU%boyyHETA!boj!U%boy<PSILON!boj%V!W!X%boy)I!boj)Y!Z%boywETAuboy~",
  "THETA SYMBOLnfcbLEFT ANGLE BRACKETsfcdDOUBLE ANGLE BRACKETsfchFLATTENED PARENTHESISsfb~WHITE S",
  "QUARE BRACKETyfcfTORTOISE SHELL BRACKETnbovmMONOSPACE CAPITAL A*B*C*D*E*F*G*H*I*J*K*L*M*N*O*P*",
  "Q*R*S*T*U*V*W*X*Y*Zxbo)fDIGIT EIGHT(bo)cFIVE)bo)bOUR(bo)gNINE(bo(|ONE(bo)eSEVEN)bo)dIX(bo)aTHR",
  "EE)bo(~WO(bo(_ZEROxbov=SMALL A(B(C(D(E(F(G(H(I(J(K(L(M(N(O(P(Q(R(S(T(U(V(W(X(Y(ZnfccRIGHT ANGL",
  "E BRACKETtfceDOUBLE ANGLE BRACKETtfciFLATTENED PARENTHESIStfcaWHITE SQUARE BRACKETzfcgTORTOISE",
  " SHELL BRACKETpfbrSING DIAGONALnbor;SANS-SERIF BOLD CAPITAL A=bo!rLPHA<bor<B=bo!sETA<bor=C=bo!",
  ">HI<bor>D=bo!uELTA<bor?E=bo!vPSILON=bo!xTA<bor^F<G=bo!tAMMA<bor|H<I=bo!zOTA<bosaJ<K=bo!!APPA<b",
  "oscL=bo!%AMDA<bosdM=bo!&U<boseN=bo!(U<bosfO=bo!^MEGA>bo!*ICRON<bosgP=bo!=HI=bo!+I=bo!?SI<boshQ",
  "<R=bo!,HO<bosjS=bo!:IGMA<boskT=bo!;AU=bo!yHETA_bo!. SYMBOL<boslU=bo!<PSILON<bosmV<W<X=bo!)I<bo",
  "spY<Z=bo!wETA(bo(?DIGIT EIGHT:bo(<FIVE;bo(;OUR:bo(^NINE:bo(,ONE:bo(>SEVEN;bo(=IX:bo(:THREE;bo(",
  ".WO:bo(+ZERO(bo%yEPSILON SYMBOL(boufITALIC CAPITAL A~bo%)ALPHA~bougB~bo%*BETA~bouhC~bo&hCHI~bo",
  "uiD~bo%,DELTA~boujE~bo%.EPSILON~bo%;ETA~boukF~G~bo%+GAMMA~boumH~I~bo%=IOTA~bouoJ~K~bo%>KAPPA~b",
  "ouqL~bo%?LAMDA~bourM~bo%^MU~bousN~bo%_NU~boutO~bo&jOMEGA~bo%~OMICRON~bouuP~bo&gPHI~bo&aPI~bo&i",
  "PSI~bouvQ~R~bo&bRHO~bouxS~bo&dSIGMA~bouyT~bo&eTAU~bo%<THETA~bo&cTHETA SYMBOL~bouzU~bo&fUPSILON",
  "~bou!V~W~X~bo%|XI~bou(Y~Z~bo%:ZETA;bo&<EPSILON SYMBOL;bo&>KAPPA SYMBOL;bo&kNABLA;bo&;PARTIAL D",
  "IFFERENTIAL<bo&?HI SYMBOL<bo&_I SYMBOL;bo&^RHO SYMBOL;bou*SMALL A|bo&lLPHA_bou+B|bo&mETA_bou,C",
  "|bo&,HI_bou.D|bo&oELTA_bou:E|bo&pPSILON|bo&rTA_bou;F|bo&&INAL SIGMA_bou<G|bo&nAMMA_bou=H_I|bo&",
  "tOTA_bou?J_K|bo&uAPPA_bou_L|bo&vAMDA_bou|M|bo&wU_bou~N|bo&xU_bovaO|bo&:MEGA~bo&zICRON_bovbP|bo",
  "&+HI|bo&!I|bo&.SI_bovcQ_R|bo&%HO_boveS|bo&(IGMA_bovfT|bo&)AU|bo&sHETA_bovgU|bo&*PSILON_bovhV_W",
  "_X|bo&yI_bovkY_Z|bo&qETA;bo&=THETA SYMBOL(bo%!KAPPA SYMBOL(bo!_NABLA(bo%xPARTIAL DIFFERENTIAL)",
  "bo%%HI SYMBOL)bo%(I SYMBOL(bo%&RHO SYMBOL(bosrSMALL A;bo!|LPHA:bossB;bo!~ETA:bostC;bo%uHI:bosu",
  "D;bo%bELTA:bosvE;bo%cPSILON;bo%eTA:boswF;bo%pINAL SIGMA:bosxG;bo%aAMMA:bosyH:I;bo%gOTA:bos!J:K",
  ";bo%hAPPA:bos&L;bo%iAMDA:bos(M;bo%jU:bos)N;bo%kU:bos*O;bo%wMEGA<bo%mICRON:bos+P;bo%tHI;bo%nI;b",
  "o%vSI:bos,Q:R;bo%oHO:bos:S;bo%qIGMA:bos;T;bo%rAU;bo%fHETA:bos<U;bo%sPSILON:bos=V:W:X;bo%lI:bos",
  "^Y:Z;bo%dETA(bo%zTHETA SYMBOLyboq(CAPITAL A+B+C+D+E+F+G+H+I+J+K+L+M+N+O+P+Q+R+S+T+U+V+W+X+Y+Zy",
  "bo()DIGIT EIGHT)bo(%FIVE*bo(!OUR)bo(*NINE)bo(xONE)bo((SEVEN*bo(&IX)bo(zTHREE*bo(yWO)bo(wZEROyb",
  "os|ITALIC CAPITAL A>B>C>D>E>F>G>H>I>J>K>L>M>N>O>P>Q>R>S>T>U>V>W>X>Y>Z*SMALL A<B<C<D<E<F<G<H<I<",
  "J<K<L<M<N<O<P<Q<R<S<T<U<V<W<X<Y<ZyborkSMALL A)B)C)D)E)F)G)H)I)J)K)L)M)N)O)P)Q)R)S)T)U)V)W)X)Y)",
  "Zobok>CRIPT CAPITAL A&bok^C&D&bolaG&boldJ&K&bolhN&O&P&Q&bolmS&T&U&V&W&X&Y&ZuSMALL A!B!C!D!bolz",
  "F!bol%H!I!J!K!L!M!N!bol:P!Q!R!S!T!U!V!W!X!Y!Zcbst?XIMIZEbeohEASURED ANGLEjepxBYdbsf)T ON BONEc",
  "bs_fCHANICAL ARMlLEGce>~DIUM BLACK CIRCLEhe~kFLATTENED LEFT PARENTHESIS ORNAMENTrRIGHT PARENTH",
  "ESIS ORNAMENThe~uLEFT CURLY BRACKET ORNAMENTme~iPARENTHESIS ORNAMENTle~m-POINTING ANGLE BRACKE",
  "T ORNAMENTheehMATHEMATICAL SPACEhe~vRIGHT CURLY BRACKET ORNAMENTne~jPARENTHESIS ORNAMENTme~n-P",
  "OINTING ANGLE BRACKET ORNAMENThe,,SHADEie?aMALL WHITE CIRCLEhe|=VERTICAL BARhe>|WHITE CIRCLEcb",
  "sfqLONdbtdzTING FACEcbsoqMOcbsq>NORAH WITH NINE BRANCHESdbsy_S SYMBOLce<!RCURYdbs_:PERSONcdoSS",
  "AGE WAITINGcex.TRICAL BREVEjLONG OVER SHORTtex<TWO SHORTSjex_PENTASEMEjex;SHORT OVER LONGjex^T",
  "ETRASEMEkex?RISEMEkex>WO SHORTS JOINEDuex=OVER LONGebsx<Obe!tICR DASH SYMBOLfe!sON US SYMBOLee",
  "bO SIGNfbs^uBEfbshsPHONEfbsqfSCOPEcedDDLE DOTdes,LINE HORIZONTAL ELLIPSIScbtb^LITARY HELMETjbs",
  "heMEDALdbsebKY WAYdef+L SIGNcbsybNIBUSebsn(DISCebst>MIZEden<US SIGNgeo?TILDEfen=-OR-PLUS SIGNc",
  "btceRRORgbtcp BALLbeehMSPbbso;OBILE PHONEmbso> OFFnbso<WITH RIGHTWARDS ARROW AT LEFTcergDELSeb",
  "s>jRN PENTATHLONdp>IFIER LETTER ACUTE ACCENTrpzPOSTROPHEqq^BEGIN HIGH TONEwq|LOW TONEqqdCENTRE",
  "D LEFT HALF RINGyqcRIGHT HALF RINGrp:IRCUMFLEX ACCENTrqpROSS ACCENTqq)DOUBLE APOSTROPHExpxPRIM",
  "Esp.WN ARROWHEADvqfTACKqq_END HIGH TONEuq~LOW TONErqvXTRA-HIGH TONE BARwqzLOW TONE BARqcg&GEOR",
  "GIAN NARrp(LOTTAL STOPrp?RAVE ACCENTqqbHALF TRIANGULAR COLONrqwIGH TONE BARqp*LEFT ARROWHEADvp",
  "&HALF RINGrp~OW ACUTE ACCENTuq*DOWN ARROWHEADup|GRAVE ACCENTurcLEFT ARROW)q,HEADup_MACRONuq.RI",
  "GHT ARROWHEADwNGuq>TILDEvqyONE BARuq+UP ARROWHEADup^VERTICAL LINEqp=MACRONrqxID TONE BARtq=DLE",
  " DOUBLE ACUTE ACCENT)q<GRAVE ACCENTxq;GRAVE ACCENTsqhNUS SIGNqrbOPEN SHELFqqgPLUS SIGNrpwRIMEq",
  "q?RAISED COLONrp!EVERSED COMMAzp)GLOTTAL STOPrqoHOTIC HOOKrp+IGHT ARROWHEADwp%HALF RINGqraSHEL",
  "FrptMALL CAPITAL INVERTED RwqqGAMMAwpnHx WITH HOOKwJwqrLwpqRxquEVERSED GLOTTAL STOPwqsSwprTURN",
  "ED R) WITH HOOKwpuWwqtXwpvYqqaTRIANGULAR COLONrpyURNED COMMAqq(UNASPIRATEDrp,P ARROWHEADtqeTAC",
  "Kqp<VERTICAL LINErq&OICINGqq%YANG DEPARTING TONE MARKrq!IN DEPARTING TONE MARKcbsnqNEY BAGgbsn",
  "yWITH WINGSfbs=m-MOUTH FACEdbsj=KEYgbsk& FACEde>lOGRAM FOR YANGoINebsyoRAILeewlSTABLE SYMBOLcb",
  "suvOD BUBBLEdbs?pN CAKEfbsg~VIEWING CEREMONYcbsq<SQUEfbs^tITOcbs>eTHER CHRISTMASdbsz^OR BOATgb",
  "s!mSCOOTERfbs_dIZED WHEELCHAIRfbsz>WAYcbsu+UNT FUJIfe^xAINibsy= BICYCLISTjbsyrCABLEWAYjbsypRAI",
  "LWAYdbsjvSEfbsku FACEgbtckTRAPdbsk|THcbshtVIE CAMERAcbsu;YAIbep;UCH GREATER-THANfep:LESS-THANc",
  "erxLTIMAPfbsh;PLE MUSICAL NOTEShe:ICATION SIGNpe_pXfeqySETi MULTIPLICATIONjUNIONcbsfmSHROOMde=",
  "%IC FLAT SIGNgNATURAL SIGNgSHARP SIGNfbsh>AL KEYBOARDqbshg WITH JACKSibsh:NOTEibsh_SCOREbdoWae",
  "n:N-ARY COPRODUCTger,INTERSECTIONger*LOGICAL ANDoORgen.PRODUCTgen;SUMMATIONger.UNIONben!ABLAcb",
  "smsIL POLISHdef,RA SIGNcvKcbsooME BADGEcer%NDcedeRROW NO-BREAK SPACEceewTIONAL DIGIT SHAPESjbs",
  "i*PARKcbs=(USEATED FACEcbs|zZAR AMULETbc^BHcdzSPbbsloECKTIEceroGATED DOUBLE VERTICAL BAR DOUBL",
  "E RIGHT TURNSTILEfvIVE ACKNOWLEDGEje)vCIRCLED DIGIT ZEROre)iNUMBER EIGHTEENze)bLEVENye)fFIFTEE",
  "Nze)eOURTEENye)jNINETEENye)hSEVENTEENze)gIXTEENye)dTHIRTEENze)cWELVE%e)kNTYje|%SQUARED CROSS M",
  "ARKcequITHER A SUBSET OF NOR EQUAL TOmPERSET OF NOR EQUAL TOjepaPPROXIMATELY NOR ACTUALLY EQUA",
  "L TOiep_GREATER-THAN NOR EQUAL TO&eqbIVALENT TOzeqfLESS-THANiep^LESS-THAN NOR EQUAL TOzeqaIVAL",
  "ENT TOweqeGREATER-THANcc|Lce<,PTUNEcbs=oRD FACEcbtc+ST WITH EGGSebtbzING DOLLSce?gUTERebs|(RAL",
  " CHESS BISHOPubs~f ROTATED NINETY DEGREES(btacTWO HUNDRED SEVENTY DEGREESobtakEQUIHOPPERybtan ",
  "ROTATED NINETY DEGREESobs|!KINGsbs~c ROTATED NINETY DEGREES%bs~~TWO HUNDRED SEVENTY DEGREESpbs",
  "|)NIGHTubs|. ROTATED FORTY-FIVE DEGREES(bs~gNINETY DEGREES(bs~kONE HUNDRED THIRTY-FIVE DEGREES",
  "(btahTHREE HUNDRED FIFTEEN DEGREES)btadWO HUNDRED SEVENTY DEGREES^bs~*TWENTY-FIVE DEGREESobs|*",
  "PAWNsbs~h ROTATED NINETY DEGREES%btaeTWO HUNDRED SEVENTY DEGREESobs|%QUEENtbs~d ROTATED NINETY",
  " DEGREES&btaaTWO HUNDRED SEVENTY DEGREESobs|&ROOKsbs~e ROTATED NINETY DEGREES%btabTWO HUNDRED ",
  "SEVENTY DEGREESobs~!TURNED BISHOPvbs~xKINGwbs~%NIGHTvPAWNvbs~yQUEENvROOKibsviFACEckW LINEebseg",
  "MOON SYMBOLjbsepWITH FACEeef<SHEQEL SIGNdbso:SPAPERcc|XT LINEfewwPAGEbbsd<IGHT WITH STARScbs?y",
  "NJAbkLbedeNBSPbbsy;O BICYCLESec^REAK HEREde??ENTRYibsy& SIGNdbso?MOBILE PHONESdbsp;ONE UNDER E",
  "IGHTEEN SYMBOLdbsy?PEDESTRIANSebsr)IRACYdbsy)SMOKING SYMBOLcdz-BREAK SPACEceexMINAL DIGIT SHAP",
  "EScectN-BREAKING HYPHENebsy.POTABLE WATER SYMBOLcer&RdegjDIC MARK SIGNderrMAL SUBGROUP OFsert ",
  "OR EQUAL TOdeleTH EAST ARROWlemxDOUBLE ARROWgeldWEST ARROWqene TO CORNERuel<LONG BARlemwDOUBLE",
  " ARROWfbs!bEAST-POINTING AIRPLANEcbsk_SEceqqT A SUBSET OFiPERSET OFfepcLMOST EQUAL TOfen&N ELE",
  "MENT OFfeo_SYMPTOTICALLY EQUAL TOeev=CHECK MARKeepzEQUAL TOhep=IVALENT TOeep?GREATER-THANeep%I",
  "DENTICAL TOeep>LESS-THANees&NORMAL SUBGROUP OFwes) OR EQUAL TOeeomPARALLEL TOed<SIGNfesuQUARE ",
  "IMAGE OF OR EQUAL TOlORIG",
  "INAL OF OR EQUAL TOeeo>TILDEfermRUEdbsq&CHED LEFT SEMICIRCLE WITH THREE DOTSjfa.OWER RIGHT-SHA",
  "DOWED WHITE RIGHTWARDS ARROWibsq(RIGHT SEMICIRCLE WITH THREE DOTSifa;UPPER RIGHT-SHADOWED WHIT",
  "E RIGHTWARDS ARROWdbst!Eebst& PADhbst%GEebsogBOOKi WITH DECORATIVE COVERbaULdaLce&jMBER EIGHTE",
  "EN FULL STOPie&cLEVEN FULL STOPhe&gFIFTEEN FULL STOPie&fOURTEEN FULL STOPhe&kNINETEEN FULL STO",
  "Phe&iSEVENTEEN FULL STOPi:IGNje&hXTEEN FULL STOPhe&bTEN FULL STOPie&eHIRTEEN FULL STOPie&dWELV",
  "E FULL STOPke&lNTY FULL STOPdeikERO SIGNcbsqcT AND BOLTa+qmOBJECT REPLACEMENT CHARACTERcey:SER",
  "VER EYE SYMBOLbe!rCR AMOUNT OF CHECKee!oBELT BUCKLEfOW TIEfRANCH BANK IDENTIFICATIONee!lCHAIRf",
  "e!tUSTOMER ACCOUNT NUMBERee!sDASHfe!uOUBLE BACKSLASHee!mFORKee!kHOOKee!nINVERTED FORKcbszvTAGO",
  "NAL SIGNdbskaOPUSbbsf_DENbbsi:FFICE BUILDINGbqlGONEKbei!HM SIGNbbsz=IL DRUMbbslgK HAND SIGNbbs",
  "ucLD KEYebstfPERSONAL COMPUTERdbs_!ER ADULTgbsmbMANgWOMANcbtdlIVEbbsq.M SYMBOLbbsp,N WITH EXCL",
  "AMATION MARK WITH LEFT RIGHT ARROW ABOVEcbsyjCOMING AUTOMOBILEjbsx|BUSjbs!iFIRE ENGINEjbsyfPOL",
  "ICE CARjbsyhTAXIcbstbE BUTTON MOUSEeec=DOT LEADERdbtbe-PIECE SWIMSUITcbs_mIONbbsojPEN BOOKhez!",
  "Xfe_~CENTRE ASTERISKme_<BLACK STARme_vCROSSme|jTEARDROP-SPOKED ASTERISKfbsn.FILE FOLDERgbsttOL",
  "DERfbslkHANDS SIGNfbspzLOCKfbso+MAILBOX WITH LOWERED FLAGsbso*RAISED FLAGffbjSUBSEThPERSETeewn",
  "-CIRCUIT-OUTPUT H-TYPE SYMBOLuL-TYPE SYMBOLffbeOUTLINED RIGHTWARDS ARROWddwRATING SYSTEM COMMA",
  "NDce?.HIUCHUSce;vPOSITIONcbsn*TICAL DISCmbstk ICONeet_ON KEYbfbnR WITH DOT INSIDEcbsomANGE BOO",
  "Khbs_?HEARTfbs^%UTANcervIGINAL OFce<bTHODOX CROSSbdwSCbbs^!TTERbeizUNCE SIGNcbsoxTBOX TRAYde_>",
  "LINED BLACK STARje_tGREEK CROSSje_zLATIN CROSSje>)WHITE STARbbs?wVERHEATED FACEebst^LAPfedtINE",
  "bbs?_WLbbsjwXbbs^)YSTERabsozPACKAGEcc=Ddc=DING CHARACTERcbst,GEebsn; FACING UPfbsueWITH CIRCLE",
  "D TEXTlbsn:URLebsosRebst.SdbszyODAce?iLLASdbtd~M DOWN HANDfbse^TREEfbteaUP HANDebs>aS UP TOGET",
  "HERcbs>~NCAKESdbsk:DA FACEcbsobPERCLIPcbtbvRACHUTEeec|GRAPH SEPARATOReeolLLEL TOde%yENTHESIZED",
  " DIGIT EIGHTue%vFIVEve%uOURue%zNINEue%rONEue%xSEVENve%wIXue%tTHREEve%sWOoe&mLATIN SMALL LETTER",
  " A,B,C,D,E,F,G,H,I,J,K,L,M,N,O,P,Q,R,S,T,U,V,W,X,Y,Zoe%.NUMBER EIGHTEENwe%%LEVENve%*FIFTEENwe%",
  ")OURTEENve%:NINETEENve%,SEVENTEENwe%+IXTEENve%!TENwe%(HIRTEENwe%&WELVEye%;NTYdbs^qROTdgetT ALT",
  "ERNATION MARKeenvIAL DIFFERENTIALidfLINE BACKWARDndeDOWNndeFORWARDnUPhe=|LY-RECYCLED PAPER SYM",
  "BOLebsg;Y POPPERcbs!kSSENGER SHIPeewpIVE-PULL-DOWN-OUTPUT SYMBOLnUP-OUTPUT SYMBOLebszgPORT CON",
  "TROLcbsk<W PRINTSbedbDFceerIbe<jEACE SYMBOLebsfzHebs^oOCKdbs>_NUTSdbsfyRcbsy>DESTRIANcbssfN OV",
  "ER STAMPED ENVELOPEde_jCILdbskoGUINdbsvmSIVE FACEde^lTAGRAMcbtc?OPLE HUGGINGcedfR MILLE SIGNee",
  "jtSIGNeedgTEN THOUSAND SIGNd<CENT SIGNdbsh%FORMING ARTSde=~MANENT PAPER SIGNdfbiPENDICULARdbsv",
  "%SEVERING FACEebswsON BOWING DEEPLYhbs_)CLIMBINGhbs>gDOING CARTWHEELhbswyFROWNINGhbs_*IN LOTUS",
  " POSITIONkbs_(STEAMY ROOMhbswxRAISING BOTH HANDS IN CELEBRATIONhe^+WITH BALLnbsl|LOND HAIRmbtc",
  "|CROWNmbsw!FOLDED HANDSmbs_&HEADSCARFmbswzPOUTING FACEgbsn%AL COMPUTEReetlPECTIVEcef.SETA SIGN",
  "def~O SIGNcbs|fTRI DISHbe?:ICKebs!sUP TRUCKcbs?iEcbsj_Gdbsk) FACEebsk;NOSEcecLCROW SIGNdbsnjE ",
  "OF POOdbsmxLcbtbyNATAdbs=hCHED FINGERSfbs=kING HANDdbsg?E DECORATIONebsfvAPPLEde_^WHEEL STARce",
  "=bSCESdbsqeTOLcesgTCHFORKbbtcnLACARDeet(E OF INTEREST SIGNjbszuWORSHIPdeicNCK CONSTANTp OVER T",
  "WO PIdbsz,YGROUND SLIDEebr;pING CARD ACE OF CLUBSubr:~DIAMONDSubr:&HEARTSubr:mSPADESnbr:lBACKo",
  "br;nLACK JOKERnbr;wEIGHT OF CLUBSwbr;gDIAMONDSwbr::HEARTSwbr:tSPADESnbr;tFIVE OF CLUBSvbr;dDIA",
  "MONDSvbr:+HEARTSvbr:qSPADESobr;)OOLpbr;sUR OF CLUBSvbr;cDIAMONDSvbr:*HEARTSvbr:pSPADESnbr;zJAC",
  "K OF CLUBSvbr;jDIAMONDSvbr:=HEARTSvbr:wSPADESnbr;&KING OF CLUBSvbr;mDIAMONDSvbr:^HEARTSvbr:zSP",
  "ADESobr;!NIGHT OF CLUBSxbr;kDIAMONDSxbr:>HEARTSxbr:xSPADESnbr;xNINE OF CLUBSvbr;hDIAMONDSvbr:;",
  "HEARTSvbr:uSPADESnbr;%QUEEN OF CLUBSwbr;lDIAMONDSwbr:?HEARTSwbr:ySPADESnbr:_RED JOKERnbr;vSEVE",
  "N OF CLUBSwbr;fDIAMONDSwbr:.HEARTSwbr:sSPADESobr;uIX OF CLUBSubr;eDIAMONDSubr:,HEARTSubr:rSPAD",
  "ESnbr;yTEN OF CLUBSubr;iDIAMONDSubr:<HEARTSubr:vSPADESobr;rHREE OF CLUBSwbr;bDIAMONDSwbr:)HEAR",
  "TSwbr:oSPADESobr;*RUMP-1ubr;?0u1u2u3u4u5u6u7u8u9tbr;+2ubr<f0u1tbr;,3t4t5t6t7t8t9obr;qWO OF CLU",
  "BSubr;aDIAMONDSubr:(HEARTSubr:nSPADESnbr;(WHITE JOKERcdeDcUdbtcgNGERd|S SIGNed_-MINUS SIGNde<.",
  "TObdxMbbss?OCKET CALCULATORcbsyeLICE CARkbsyzS REVOLVING LIGHThbsl?OFFICERcbskqODLEcedbP DIREC",
  "TIONAL FORMATTINGqeerISOLATEdbsg!CORNcbspeRTABLE STEREOcet%SITION INDICATORdbso.TAL HORNhgdvMA",
  "RKlgd: FACEebso,BOXcbsgnT OF FOODdbsy,ABLE WATER SYMBOLebs>.TOdbtc!TED PLANTcbslxUCHdbsf*LTRY ",
  "LEGdd&ND SIGNdbtdqRING LIQUIDdbswjTING CAT FACEibsvzFACEcey,WER ON SYMBOLiey+-OFF SYMBOLgey.SL",
  "EEP SYMBOLhey*YMBOLbbspfRAYER BEADSceqgECEDESies! BUT NOT EQUIVALENT TOjeqiOR EQUAL TOpeqkIVAL",
  "ENT TOjerpUNDER RELATIONdbtc^GNANT MANjPERSONjbs=|WOMANdeisSCRIPTION TAKEdbs?jTZELdewvVIOUS PA",
  "GEcedhIMEdbs>cNCEgbsmfSSeewxT SCREEN SYMBOLfbss>ERhbsti ICONddxVACY MESSAGEfdkTE USE ONEmTWOld",
  "k-1m2cbs^:OBING CANEdbszlHIBITED SIGNdetkJECTIVEdejrPERTY LINEeeo(ORTIONkeodAL TObdkU1c2cbsovB",
  "LIC ADDRESS LOUDSPEAKERceckNCTUATION SPACEcbsm^RPLE HEARTdbslvSEcbsn~SHPINcbsy*T LITTER IN ITS",
  " PLACE SYMBOLae,<QUADRANT LOWER LEFTpRIGHTjUPPER LEFTt AND LOWER LEFT AND LOWER RIGHT)RIGHTyUP",
  "PER RIGHT AND LOWER LEFT~R RIGHTpRIGHTu AND LOWER LEFT: AND LOWER RIGHTfed~UPLE PRIMEde=xRTER ",
  "NOTEced(ESTION EXCLAMATION MARKjbsMARKiepyED EQUAL TOce?pINCUNXc.OTATION MARKabsj%RABBITgbskx ",
  "FACEcbs^rCCOONdbsipING CARhbsioMOTORCYCLEcexiDICAL SYMBOL BOTTOMebspbOfbsp) BUTTONfe;_ACTIVE S",
  "IGNcbsx,ILWAY CARibsz?TRACKde?!Nebsd_BOWdbs=vSED BACK OF HANDhe_eFISThHANDlbssp WITH FINGERS S",
  "PLAYEDrbssvPART BETWEEN MIDDLE AND RING FINGERScbsj:McbsjuTdeo&IOcbtb<ZORbbs|yECEIPTd)ORD SEPA",
  "RATORdbsykREATIONAL VEHICLEde=_YCLED PAPER SYMBOLge=?ING SYMBOL FOR GENERIC MATERIALSve=,TYPE-",
  "1 PLASTICS!2 PLASTICS!3 PLASTICS!4 PLASTICS!5 PLASTICS!6 PLASTICS!7 PLASTICScbsfwD APPLEebs|bG",
  "IFT ENVELOPEcedqFERENCE MARKcd>GISTERED SIGNcbsveLIEVED FACEcbshfMINDER RIBBONc+qnPLACEMENT CH",
  "ARACTERceitSPONSEde^hTRICTED LEFT ENTRY-1w2fbsy~OOMcex*TURN SYMBOLcdgVERSE INDEXidgLINE FEEDic",
  "cSOLIDUSpfbo PRECEDING SUBSEThedlD DOUBLE PRIMEvgd+ QUOTATION MARKjbssuHAND WITH MIDDLE FINGER",
  " EXTENDEDjetvNOT SIGNjed+PILCROW SIGNkedkRIMEjbssqRAISED HAND WITH FINGERS SPLAYEDke;,OTATED F",
  "LORAL HEART BULLETjejkSANS-SERIF CAPITAL Lked;EMICOLONjbsssTHUMBS DOWN SIGNqbssrUP SIGNkeo:ILD",
  "Eoer~ EQUALSkedmRIPLE PRIMEjbsstVICTORY HANDdbsm|OLVING HEARTSbbs^dHINOCEROSbdgIcbsg%BBONcbsf,",
  "CE BALLfbsf+CRACKERcbs>uFLEcbsuuGHT ANGER BUBBLEjeofLElgdm BRACKETmer(WITH ARCrev>DOWNWARDS ZI",
  "GZAG ARROWhfcnRROW WITH CIRCLED PLUSrenhSMALL CIRCLEggduBLACK LENTICULAR BRACKETgetoCEILINGhgd",
  "qORNER BRACKEThc:URLY BRACKETtew| LOWER HOOKuew_MIDDLE PIECEuew^UPPER HOOKggdoDOUBLE ANGLE BRA",
  "CKETnec*QUOTATION MARKgetqFLOORge:mHALF BLACK CIRCLEne,*OCKibsr^ND TELEPHONE RECEIVERger^NORMA",
  "L FACTOR SEMIDIRECT PRODUCTge,;ONE EIGHTH BLOCKhfb&UTER JOINg^PARENTHESISrew( EXTENSIONsLOWER ",
  "HOOKsew&UPPER HOOKgfbmS-SHAPED BAG DELIMITERher|EMIDIRECT PRODUCThec%INGLE QUOTATION MARKhbsru",
  "PEAKERn WITH ONE SOUND WAVEtTHREE SOUND WAVESjbsuoECH BUBBLEhcdQUARE BRACKETuew: EXTENSIONvLOW",
  "ER CORNERvew.UPPER CORNERved%WITH QUILLgerbTACKhbsusHOUGHT BUBBLEhgdyORTOISE SHELL BRACKETher)",
  "RIANGLEgexkVERTICAL BOX LINEggdsWHITE CORNER BRACKETmgd!LENTICULAR BRACKETmgd)SQUARE BRACKETmg",
  "d&TORTOISE SHELL BRACKETfbs=x-FACING FISTge^mHANDED INTERLACED PENTAGRAMgeucPOINTING ANGLE BRA",
  "CKETpehDOUBLE ANGLE QUOTATION MARKpbspuMAGNIFYING GLASSgfa&SHADED WHITE RIGHTWARDS ARROWgedaTO",
  "-LEFT EMBEDDINGoeepISOLATEoecrMARKoeddOVERRIDEfek~WARDS ARROWqelt FROM BARremeOVER LEFTWARDS A",
  "RROWrem<TO BARrel,WITH CORNER DOWNWARDSwenoDOUBLE VERTICAL STROKEwelxHOOKwelzLOOPweliSTROKEwel",
  "qTAILwenlVERTICAL STROKElem.DASHED ARROWmemsOUBLE ARROWxemp WITH STROKElbtd_HANDnemmRPOON OVER",
  " LEFTWARDS HARPOONtembWITH BARB DOWNWARDS(emaUPWARDSlenrOPEN-HEADED ARROWlemjPAIRED ARROWSlem(",
  "SQUIGGLE ARROWlem%TRIPLE ARROWmelnWO HEADED ARROWlelkWAVE ARROWmem?HITE ARROWwend FROM WALLcbs",
  "m!NGeqk ABOVEfbsz:BUOYfepqEQUAL TOfeppIN EQUAL TOfen|OPERATORebtb:ED PLANETebsrzING BELLbedaLE",
  "ceepIcecrMceddObbsf?OASTED SWEET POTATOcbs=rBOT FACEcbtcoCKebsx)ETcbs|vLL OF PAPERebsudED-UP N",
  "EWSPAPERfbshqR COASTERhbs!tSKATEebs=)ING ON THE FLOOR LAUGHINGcekbMAN NUMERAL EIGHTpekeLEVENoe",
  "kgFIFTYtek+ EARLY FORMuTHOUSANDqej|VEseki HUNDREDtek%THOUSANDpej_OURoekcNINEoej>ONErekh HUNDRE",
  "Dzek. THOUSANDsekjTHOUSAND!ek! C Doek(REVERSED ONE HUNDREDoekaSEVENpej~IXrek* LATE FORMoekdTEN",
  "rek& THOUSANDpej^HREEpekfWELVEqej?Ocbsj>OSTERcbsfbSEebsjjTTEcejbTATED CAPITAL Qie~hFLORAL HEAR",
  "T BULLETie~fHEAVY BLACK HEART BULLETcbsoaUND PUSHPINcbsyuWBOATb)SbeglUBLE SIGNcbsikGBY FOOTBAL",
  "LcbsieNNERebsh|ING SHIRT WITH SASHcef:PEE SIGNabs|rSAFETY PINhbs_bVESTce<|GITTARIUSce^&ILBOATc",
  "bsgrKE BOTTLE AND CUPcbs_jLT SHAKERee;%IREdbtd!UTING FACEcbs?lNDWICHcbs?&RIcbs!hTELLITEjbsou A",
  "NTENNAde<*URNcbs^jUROPODcbsh<XOPHONEbe>xCALESdbs__RFcbsi~HOOLgbsha SATCHELcdtIcbs!lOOTERdbs?:R",
  "PIONge<_UScbsthREENebtcbWDRIVERdei+IPT CAPITAL Bpei;EpFpeh~HpeieIpeigLpei>MpeimPpeipRhei:SMALL",
  " Eneh|GneihLnei?OdbsopOLLdeh^UPLEbbs^,EALdbsn!Tcbs>wCOND PLACE MEDALdd+TION SIGNeetzORcbswtE-N",
  "O-EVIL MONKEYdbse=DLINGcetyGMENTcbs>bLFIEcboMICOLONee?oSEXTILEcbs=>RIOUS FACE WITH SYMBOLS COV",
  "ERING MOUTHdeiuVICE MARKce?qSQUIQUADRATEcen^T MINUSedmTRANSMIT STATEcbtchWING NEEDLEce?nXTILEb",
  "dsGCbe|!HADOWED WHITE CIRCLEpe_yLATIN CROSSpe__STARdbs>=LLOW PAN OF FOODde;+MROCKdbs?^RKdbsgcV",
  "ED ICEcbsj<EEPcbsz<IELDdpFT INgoOUTde^qNTO SHRINEdbsytPcbs=_OCKED FACE WITH EXPLODING HEADdbse",
  "vOTING STARdbszrPPING BAGSjbszwTROLLEYdbsglRTCAKEfbtbgSdev?ULDERED OPEN BOXdbszdWERcbs^eRIMPdb",
  "s>fUGcd=YbpIcbss+DEWAYS BLACK DOWN POINTING INDEXpbsszLEFT POINTING INDEXpRIGHT POINTING INDEX",
  "pbss*UP POINTING INDEXjbss)WHITE DOWN POINTING INDEXpbssxLEFT POINTING INDEXpRIGHT POINTING IN",
  "DEXpbss(UP POINTING INDEXcbs=tGN OF THE HORNScbsu:LHOUETTE OF JAPANceo<NE WAVEddtGLE CHARACTER",
  " INTRODUCERhdsGRAPHIC CHARACTER INTRODUCERhec(HIGH-REVERSED-9 QUOTATION MARKhedoLEFT-POINTING ",
  "ANGLE QUOTATION MARKiec&OW-9 QUOTATION MARKhedpRIGHT-POINTING ANGLE QUOTATION MARKhdiSHIFT THR",
  "EEodhWOgdh-SHIFT-2n3ce|lX PETALLED BLACK AND WHITE FLORETTEfe|dOINTED BLACK STARmbsqiSTAR WITH",
  " MIDDLE DOTdeci-PER-EM SPACEde|hTEEN POINTED ASTERISKbbs!qKATEBOARDcbsiaI AND SKI BOOTde^)ERcb",
  "smnULLfe;? AND CROSSBONESdbs^&NKbbs!oLEDdbszqEPING ACCOMMODATIONjbsv~FACEjbsneSYMBOLfbsv.Y FAC",
  "Edbsr,UTH OR SPYcbsf(ICE OF PIZZAdbswmGHTLY FROWNING FACEjSMILING FACEceulOPEdbsh)T MACHINEebs",
  "^zHbbs!aMALL AIRPLANEgbsqsBLUE DIAMONDgen+CONTAINS AS MEMBERpetdWITH OVERBARuetbVERTICAL BAR A",
  "T END OF HORIZONTAL STROKEgen(ELEMENT OFqes^ WITH OVERBARwes=VERTICAL BAR AT END OF HORIZONTAL",
  " STROKEgbsqrORANGE DIAMONDgekrROMAN NUMERAL EIGHTvekuLEVENuekwFIFTYwekoVEyeky HUNDREDveknOURue",
  "ksNINEuekkONExekx HUNDREDyekzTHOUSANDuekqSEVENvekpIXuektTENvekmHREEvekvWELVEweklOgqmTILDEcet?I",
  "LEebswgING CAT FACE WITH HEART-SHAPED EYESwbswfOPEN MOUTHibsu~FACE WITH HALOtbsvfEART-SHAPED E",
  "YEStbsvaORNSsbsu?OPEN MOUTH&bsu_ AND COLD SWEAT,bsu^SMILING EYES,bsu|TIGHTLY-CLOSED EYESsbsvcS",
  "MILING EYES)bs=? AND HAND COVERING MOUTH:bs?rTHREE HEARTStbsvgUNGLASSESsbs?tTEARdbsvhRKING FAC",
  "Ecbsy(OKING SYMBOLbbsj+NAILdKEcbs=.EEZING FACEcbsivOW CAPPED MOUNTAINebsidBOARDERee|rFLAKEee;l",
  "MANhe?y WITHOUT SNOWboOce?rCCER BALLdbs|aKScd=FT HYPHENfbsgbICE CREAMfbss|SHELL FLOPPY DISKebs",
  ">&BALLeewsWARE-FUNCTION SYMBOLcbHcbcLIDUScegoM SIGNcbsp.ON WITH RIGHTWARDS ARROW ABOVEcdrSceil",
  "UND RECORDING COPY",
  "RIGHTdelfTH EAST ARROWqenf TO CORNERlemyDOUBLE ARROWgelgWEST ARROWlemzDOUBLE ARROWb+PcdpAd+CEd",
  "bsf<GHETTIde|uRKLEhe_.Sgbsm:ING HEARTcbswvEAK-NO-EVIL MONKEYfbspoERhbspn WITH CANCELLATION STR",
  "OKEnbsppONE SOUND WAVEnTHREE SOUND WAVESfbsuiING HEAD IN SILHOUETTEdbsnmECH BALLOONebsyvDBOATd",
  "egfSMILO SIGNceoiHERICAL ANGLEcbsr:IDERg WEBdbst<RAL CALENDAR PADhbst;NOTE PADhbskbSHELLcbsngL",
  "ASHING SWEAT SYMBOLcbs|xONGEdbs|pOL OF THREADebs>sNdbsigRTS MEDALdbsk!UTING WHALEbeq*QUARE CAP",
  "iUPhex)FOOTje^(UR CORNERSheq%IMAGE OFpeq( OR EQUAL TOteswNOT EQUAL TOhetwLOZENGEheq&ORIG",
  "INAL OFseq) OR EQUAL TOwesxNOT EQUAL TOheoaROOThe.lWITH DIAGONAL CROSSHATCH FILLme.gHORIZONTAL",
  " FILLme:&LEFT HALF BLACKne:*OWER RIGHT DIAGONAL HALF BLACKme.iORTHOGONAL CROSSHATCH FILLme:(RI",
  "GHT HALF BLACKmUPPER LEFT DIAGONAL HALF BLACKxe.jTO LOWER RIGHT FILLsRIGHT TO LOWER LEFT FILLm",
  "e.hVERTICAL FILLgeraD DOT OPERATORie?tKEYifbuLOGICAL ANDqORieq|MINUSieq_PLUSie^eSALTIREieq~TIM",
  "ESefa!T BLACK RIGHTWARDS ARROWdbs^fIDbdhS2c3cc~AbdvTcbsi+ADIUMde>wFF OF AESCULAPIUSje>%HERMESd",
  "bsscMPED ENVELOPEdbs_uNDING PERSONde<fR AND CRESCENTfepuEQUALSfe_%OF DAVIDger<PERATORedpT OF G",
  "UARDED AREAjbHEADINGjdpPROTECTED AREAjc~SELECTED AREAkdrTRINGjcTEXTdbsx>TIONebsu.UE OF LIBERTY",
  "cbsx+EAM LOCOMOTIVEfbsf;ING BOWLdbtbnTHOSCOPEcbsufOCK CHARTdeyvPWATCHcbsocRAIGHT RULERieyiNESS",
  "ebsf%WBERRYde_:ESS OUTLINED WHITE STARdep&ICTLY EQUIVALENT TOedvNG TERMINATORcdmScbshhUDIO MIC",
  "ROPHONEdbs>>FFED FLATBREADdbszxPAccXb!UBdefdSCRIPT EIGHTlefhQUALS SIGNkefaFIVElee~OURkefiLEFT ",
  "PARENTHESISkefgMINUSkefeNINEkee^ONEkeffPLUS SIGNkefjRIGHT PARENTHESISkefcSEVENlefbIXkee|THREEl",
  "ee_WOkee?ZEROeeqoET OFjeqs OR EQUAL TOkeqwWITH NOT EQUAL TOe!TITUTEceqhCCEEDSies% BUT NOT EQUI",
  "VALENT TOjeqjOR EQUAL TOpeqlIVALENT TOjerqUNDER RELATIONcexeMMATION BOTTOMkexdTOPce;rNde?z BEH",
  "IND CLOUDebsetWITH FACEdbsfdFLOWERdbsd>RISEhbsd= OVER MOUNTAINSdbsd^SET OVER BUILDINGScbs^~PER",
  "HEROfee+SCRIPT EIGHTnee;QUALS SIGNmee(FIVEnee&OURmeezLATIN SMALL LETTER I*ee>Nnee<EFT PARENTHE",
  "SISmee:MINUSmee,NINEmefONEmee.PLUS SIGNmee=RIGHT PARENTHESISmee*SEVENnee)IXmd~THREEnd|WOmeeyZE",
  "ROgeqpET OFleqt OR EQUAL TOmeqxWITH NOT EQUAL TOjfbpPRECEDING SOLIDUSfbs_aVILLAINceovRFACE INT",
  "EGRALebsifERcbsf|SHIdbsyqPENSION RAILWAYbbs^wWANcbsilIMMERced?UNG DASHbey_YMBOL FOR ACKNOWLEDG",
  "Eley~BACKSPACEmey|ELLlezpCANCELnezeRRIAGE RETURNlezhDATA LINK ESCAPEmezyELETErez& FORM TWOnezl",
  "VICE CONTROL FOUR!eziONE!ezkTHREE%ezjWOlezqEND OF MEDIUMsey>TEXTtRANSMISSION)ezo BLOCKney^QUIR",
  "YmezsSCAPElFILE SEPARATORmezdORM FEEDlezuGROUP SEPARATORlezaHORIZONTAL TABULATIONlLINE FEEDlbs",
  "q)MARKS CHAPTERlezmNEGATIVE ACKNOWLEDGEnez%WLINEmey;ULLlezvRECORD SEPARATORlejwSAMARITAN SOURC",
  "EmezgHIFT INrezfOUTmezxPACEmey<TART OF HEADINGuTEXTmezrUBSTITUTEvez( FORM TWOmeznYNCHRONOUS ID",
  "LElezwUNIT SEPARATORlezcVERTICAL TABULATIONdeuhMETRYcwNdbsq=AGOGUEdwCHRONOUS IDLEcbsmwRINGE"]

def characterNamesTToZ : List String := [
  "abs^kT-REXcbslpSHIRTbjABdbsiuLE TENNIS PADDLE AND BALLcbse:COcbs?cKEOUT BOXcbtdnMALEcbsg=NABAT",
  "A TREEdbsfsGERINEcbss~PE CARTRIDGEfe_bDRIVEce<;URUScbsygXIbbsgqEACUP WITHOUT HANDLEdbtdpPOTdbs",
  "n=R-OFF CALENDARefbaDROP-BARBED RIGHTWARDS ARROWje|iSPOKED ASTERISKcbs|sDDY BEARce_aLEPHONE LO",
  "CATION SIGNkbsr~ON TOP OF MODEMkbsorRECEIVERsbsr? WITH PAGEnet!ORDERkeivSIGNebsqgSCOPEebspaVIS",
  "IONceggNGE SIGNdbsh~NIS RACQUET AND BALLde^,Tcbs|eST TUBEbb;(HAI CHARACTER ANGKHANKHUpb:kBO BA",
  "IMAIpb.<CHO CHANxb.>Gvb.=INGvb.^OEpb.|DO CHADAsb:eDEKpb:nFO FAub:pNrb;sNGMANpb:%HO HIPsb:)NOKH",
  "UKpb.*KHO KHAIvb..ONvb.+UATvWAItb.:RAKHANGsb;)MUTqb.)O KAIpb;iLAKKHANGYAOqb:&O CHULAsb:vLINGqU",
  "pb;oMAI CHATTAWAtb;lEKtb:,HAN-AKATtb;mTHOuRIsb;kTAIKHUsb;jYAMOKqb:rO MApb.;NGO NGUqb;qIKHAHITq",
  "b:dO NENtb:jUpb:(O ANGpb:*PAIYANNOIqb:_HINTHUrb:oO PHANvb:mUNGtb:qSAMPHAOqb:lO PLApb:tRO RUAqU",
  "pb:+SARA Avb:.Avb;eEvb;hI MAIMALAI%b;gUANvb::Mub;dEub:;IvIub;fOub:?Uvb:=EwEvb:^Uqb:zO RUSIsb:y",
  "SALAtb.?Otb:!UApb;pTHANTHAKHATrb:bO NANGMONTHOtPHUTHAOtb:hTHAHANwb:aNvb:iONGvb:gUNGqb.~O PATAK",
  "sb:fTAOpb:xWO WAENpb;rYAMAKKANqb:sO YAKtb._INGgb;cURRENCY SYMBOL BAHTfb;%DIGIT EIGHTlb;yFIVEmb",
  ";xOURlb;&NINElb;uONElb;!SEVENmb;zIXlb;wTHREEmb;vWOlb;tZEROcenxERE DOES NOT EXISTgenwEXISTSfeo!",
  "FOREebsewMOMETERceclIN SPACEebs=pKING FACEdbs>xRD PLACE MEDALcbtbhONG SANDALdbsnnUGHT BALLOONc",
  "bstdREE BUTTON MOUSEgfbgDIMENSIONAL ANGLEhed|OT PUNCTUATIONge>+LINES CONVERGING LEFTxe>*RIGHTg",
  "bss=NETWORKED COMPUTERSgbsujRAYS ABOVElBELOWlLEFTlRIGHThenjIGHTWARDS ARROWSgbsuqSPEECH BUBBLES",
  "ffaw-D BOTTOM-LIGHTED RIGHTWARDS ARROWHEADifavTOP-LIGHTED RIGHTWARDS ARROWHEADgecgPER-EM SPACE",
  "cbsliUMBS DOWN SIGNhbslhUP SIGNde?&NDER CLOUD AND RAINhe;qSTORMbbshzICKETcbsjzGERfbskw FACEde|",
  "sHT TRIFOLIATE SNOWFLAKEcc;LDEfeo. OPERATORceywMER CLOCKcbsv:RED FACEded*ONIAN SIGN ETbbszbOIL",
  "ETcbsu,KYO TOWERcbsfnMATOcbsk~NGUEcbs|kOLBOXdbs^|THfbtclBRUSHceycP CURLY BRACKETeet<HALF INTEG",
  "RALgbshxTeet,LEFT CORNERketuROPeeyaPARENTHESISeet.RIGHT CORNERlettROPeexfSQUARE BRACKETeeyeTOR",
  "TOISE SHELL BRACKETebsp:WITH UPWARDS ARROW ABOVEceuiTAL RUNOUTbbsteRACKBALLebsynTORdeiwDE MARK",
  " SIGNdbsx;INdbsx?Me CARcbszkIANGLE WITH ROUNDED CORNERSifaq-HEADED RIGHTWARDS ARROWgec<ULAR BU",
  "LLETlbsy!FLAG ON POSTlbsodRULERdeefCOLONdbsqkDENT EMBLEMde<sGRAM FOR EARTHme<nFIREme<lHEAVENmL",
  "AKEme<rMOUNTAINme<oTHUNDERme<qWATERne<pINDdeotPLE INTEGRALhedjPRIMEhepeTILDEherjVERTICAL BAR R",
  "IGHT TURNSTILEcbs_tOLLfbsx~EYBUSdbsihPHYebsguICAL DRINKjbskhFISHcerhUEdbsh?MPETbef^UGRIK SIGNc",
  "bse~LIPcbs>rMBLER GLASScbs?;RKEYeegiISH LIRA SIGNdejsNED AMPERSANDhe?)BLACK SHOGI PIECEhei=CAP",
  "ITAL Fhek<DIGIT THREEoek;WOhei(GREEK SMALL LETTER IOTAhet)NOT SIGNhbssoOK HAND SIGNhejiSANS-SE",
  "RIF CAPITAL G!L!ejlYiejvMALL Fhe?(WHITE SHOGI PIECEdbskjTLEbe|gWELVE POINTED BLACK STARcbspgIS",
  "TED RIGHTWARDS ARROWSced=O ASTERISKS ALIGNED VERTICALLYebstcBUTTON MOUSEeec>DOT LEADERieecPUNC",
  "TUATIONebsm.HEARTSebsl=MEN HOLDING HANDSebsupSPEECH BUBBLESebsl>WOMEN HOLDING HANDSae;kUMBRELL",
  "Aie^y ON GROUNDje;&WITH RAIN DROPSbbsvkNAMUSED FACEceduDERTIEdewkO SYMBOLcbs?<ICORN FACEdeoqON",
  "d*T SEPARATORde=+VERSAL RECYCLING SYMBOLce?dMARRIED PARTNERSHIP SYMBOLbetiP ARROWHEADmet^ BETW",
  "EEN TWO HORIZONTAL BARSdelcDOWN ARROWnelv WITH BASEiemvDOUBLE ARROWiengWHITE ARROWdes.RIGHT DI",
  "AGONAL ELLIPSISdereTACKhfb< WITH CIRCLE ABOVEcbsz|-POINTING AIRPLANEmbsz_MILITARY AIRPLANEmbsq",
  "tRED TRIANGLEmbsz~SMALL AIRPLANEsbsqvRED TRIANGLEme:.TRIANGLE WITH LEFT HALF BLACK!RIGHT HALF ",
  "BLACKce^?PER BLADE SCISSORSge,pHALF BLOCKle:vCIRCLEle:pINVERSE WHITE CIRCLEgfb!LEFT CORNER WIT",
  "H DOTlexbOR LOWER RIGHT CURLY BRACKET SECTIONle:rQUADRANT CIRCULAR ARCle;aTRIANGLEge,:ONE EIGH",
  "TH BLOCKge|(RIGHT DROP-SHADOWED WHITE SQUAREmexcOR LOWER LEFT CURLY BRACKET SECTIONme_kPENCILm",
  "e:sQUADRANT CIRCULAR ARCmbsqySHADOWED WHITE CIRCLE%e|*SQUAREme;bTRIANGLEcbswoSIDE-DOWN FACEcek",
  "|WARDS ARROWnels FROM BARoemfLEFTWARDS OF DOWNWARDS ARROWoem)WITH DOUBLE STROKEtel(TIP LEFTWAR",
  "DSxRIGHTWARDSiem,DASHED ARROWjemrOUBLE ARROWiel~HARPOON WITH BARB LEFTWARDS!el|RIGHTWARDSiemiP",
  "AIRED ARROWSifcjQUADRUPLE ARROWielmTWO HEADED ARROWiem>WHITE ARROWtem_ FROM BARuON PEDESTAL* W",
  "ITH HORIZONTAL BAR<VERTICAL BARoDOUBLE ARROW! ON PEDESTALbe<+RANUSb*Sabs_.VAMPIREc+e~RIATION S",
  "ELECTOR-1u+fi0u1u2u3u4u5u6t+fa2t3t4t5t6t7t8t9beixERSICLEdfbqTICAL BAR WITH HORIZONTAL STROKEje",
  "s+ELLIPSISjeegFOUR DOTSjgerIDEOGRAPHIC ITERATION MARKjgehKANA REPEAT MARKzgel LOWER HALF!gejUP",
  "PER HALFvgeiWITH VOICED SOUND MARK|gek UPPER HALFjc.LINEnex, EXTENSIONoev_WITH MIDDLE DOTje>^M",
  "ALE WITH STROKE SIGNjlTABULATIONtdd SETkbsyxRAFFIC LIGHTdeslY MUCH GREATER-THANkeskLESS-THANce",
  "?kSTAbbso=IBRATION MODEce_gCTORY HANDcbso~DEO CAMERAgbsh&GAMEfbspcCASSETTEcet&EWDATA SQUAREcbs",
  "h^OLINce<?RGObbseaOLCANOdbsirLEYBALLdeowUME INTEGRALb+e~S1d+fi0d1d2d3d4d5d6c+fa2c3c4c5c6c7c8c9",
  "blTcddSbej;ULGAR FRACTION FIVE EIGHTHSvej,SIXTHSrej*OUR FIFTHSqej.ONE EIGHTHuej&FIFTHuejHALFue",
  "jyNINTHueiQUARTERuejxSEVENTHvej+IXTHuejzTENTHvHIRDqej<SEVEN EIGHTHSqej:THREE EIGHTHSwej)FIFTHS",
  "wekQUARTERSrej(WO FIFTHSuej%THIRDSqek:ZERO THIRDSabs_oWAFFLEcbsenNING CRESCENT MOON SYMBOLhbse",
  "lGIBBOUS MOON SYMBOLce>,RNING SIGNcbst:STEBASKETcet*TCHdbsjxER BUFFALOgbszcCLOSETgbs>lPOLOgbsd",
  "~WAVEfbsfrMELONcgd*VE DASHdbsjiING BLACK FLAGhbslfHAND SIGNhbsjhWHITE FLAGdgegY DASHfetmLINEcb",
  "sehXING CRESCENT MOON SYMBOLhbsejGIBBOUS MOON SYMBOLbbswlEARY CAT FACEgbsv,FACEcbsm*DDINGdfbcG",
  "E-TAILED RIGHTWARDS ARROWceimIERSTRASS ELLIPTIC FUNCTIONdbsimGHT LIFTERce=)ST SYRIAC CROSSbbsj",
  "*HALEcbsz.EELfe<t OF DHARMAfe>aCHAIR SYMBOLce:%ITE BULLETge=fCHESS BISHOPsbs|= ROTATED NINETY ",
  "DEGREES%bs~:TWO HUNDRED SEVENTY DEGREESmbtaiEQUIHOPPERwbtal ROTATED NINETY DEGREESme=cKINGqbs|",
  ": ROTATED NINETY DEGREESzbs~+TWO HUNDRED SEVENTY DEGREESne=gNIGHTsbs|+ ROTATED FORTY-FIVE DEGR",
  "EES%bs|>NINETY DEGREES%bs~iONE HUNDRED THIRTY-FIVE DEGREES%btafTHREE HUNDRED FIFTEEN DEGREES&b",
  "s~;WO HUNDRED SEVENTY DEGREES>bs~(TWENTY-FIVE DEGREESsbtaq-BISHOPtbtaoQUEENtROOKme=hPAWNqbs|? ",
  "ROTATED NINETY DEGREESzbs~<TWO HUNDRED SEVENTY DEGREESme=dQUEENrbs|; ROTATED NINETY DEGREES!bs",
  "~,TWO HUNDRED SEVENTY DEGREESme=eROOKqbs|< ROTATED NINETY DEGREESzbs~.TWO HUNDRED SEVENTY DEGR",
  "EESmbs~oTURNED BISHOPtbs~lKINGubs~pNIGHTtPAWNtbs~mQUEENtROOKhe:aIRCLEme>h WITH DOT RIGHTse:_LO",
  "WER LEFT QUADRANTyRIGHT QUADRANTse>iTWO DOTSse:^UPPER LEFT QUADRANTye:~RIGHT QUADRANThe=vLUB S",
  "UIThfb>ONCAVE-SIDED DIAMOND% WITH LEFTWARDS TICK,RIGHTWARDS TICKge.^DIAMONDn CONTAINING BLACK ",
  "SMALL DIAMONDoe?*IN SQUAREoe=qSUITofbwWITH CENTRED DOThbslbOWN POINTING BACKHAND INDEXue;>INDE",
  "XubsswLEFT HAND INDEXke.,-POINTING SMALL TRIANGLEue.*TRIANGLEhe?vRAUGHTS KINGpe?uMANge|.EXCLAM",
  "ATION MARK ORNAMENTge>rFLAGke^= WITH HORIZONTAL MIDDLE BLACK STRIPEie|nORETTEjbsnoWERhe_,OUR P",
  "OINTED STARhe<uROWNING FACEgbss_HARD SHELL FLOPPY DISKhbs=iEARTle=p SUITje^~VY CHECK MARKgbsq*",
  "LATIN CROSShe^aEFT LANE MERGElbslcPOINTING BACKHAND INDEXue;;INDEXke.>-POINTING POINTERue.<SMA",
  "LL TRIANGLEue.:TRIANGLEge;fMEDIUM SMALL SQUAREoe;dQUAREge_lNIBge.tPARALLELOGRAMhbsjfENNANTge|,",
  "QUESTION MARK ORNAMENTge.pRECTANGLEhbsldIGHT POINTING BACKHAND INDEXve;=INDEXle.(-POINTING POI",
  "NTERve.%SMALL TRIANGLEve.zTRIANGLEge^|SCISSORShe;)HOGI PIECEhe.nMALL SQUAREie<vILING FACEhe=sP",
  "ADE SUIThe.dQUAREmbsqm BUTTONne.fCONTAINING BLACK SMALL SQUAREnewdWITH CENTRE VERTICAL LINEsfb",
  "_LEFTWARDS TICKte:=OWER LEFT QUADRANTyRIGHT QUADRANTsfb|RIGHTWARDS TICKte.eOUNDED CORNERSse:<U",
  "PPER LEFT QUADRANTye:?RIGHT QUADRANTse:+VERTICAL BISECTING LINEhe;oTARhbseyUNjbse! BEHIND CLOU",
  "Dw WITH RAINke<xWITH RAYSpbsezSMALL CLOUDge;xTELEPHONEhbsr_OUCHTONE TELEPHONEheygRAPEZIUMifbhI",
  "ANGLE CONTAINING SMALL WHITE TRIANGLEhe?|WO-WAY LEFT WAY TRAFFICgbslaUP POINTING BACKHAND INDE",
  "Xse;<INDEXie.x-POINTING SMALL TRIANGLEse.vTRIANGLE!e:, WITH DOTge.rVERTICAL RECTANGLEffa=-FEAT",
  "HERED RIGHTWARDS ARROWbbs>oILTED FLOWERcbse,ND BLOWING FACEfbsg|CHIMEebtcfOWdbsgsE GLASSdbsvbK",
  "ING FACEcbstaRED KEYBOARDbeeiJbbsk,OLF FACEcbsl:MANfbsl^ WITH BUNNY EARSfbsl&S BOOTShbsluCLOTH",
  "EShbslmHAThbsl%SANDALdbsy|ENS SYMBOLcef;N SIGNcbtc%ODceeiRD JOINERdbsu*LD MAPdbtcxMdbsvxRIED F",
  "ACEbbsg&RAPPED PRESENTceo=EATH PRODUCTdbsqaNCHdbs>kSTLERSce_hITING HANDaet~X IN A RECTANGLE BO",
  "Xbbtbo-RAYbbta~IANGQI BLACK CANNONpbta|HARIOTobta^ELEPHANTobta>GENERALobta_HORSEobta?MANDARINo",
  "btbaSOLDIERibta<RED CANNONnbta;HARIOTmbta.ELEPHANTmbta+GENERALmbta:HORSEmbta,MANDARINmbta=SOLD",
  "IERber!ORabs?sYAWNING FACEbbsm?ELLOW HEARTcd)N SIGNbe<kIN YANGbbtbtO-YOaeteZ NOTATION BAG MEMB",
  "ERSHIPbbs^hEBRA FACEcecpRO WIDTH JOINERl+k(NO-BREAK SPACEnecoN-JOINERlecnSPACEbbs=lIPPER-MOUTH",
  " FACEbbs_=OMBIEbecpWJc+k(NBSPdecoJcecnSP"]

end CodeChart.Text
